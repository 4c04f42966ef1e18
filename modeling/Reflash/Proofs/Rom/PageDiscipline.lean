import Reflash.Proofs.Rom.Geometry
import Reflash.Proofs.Rom.Heard
/-!
# The discipline of pages

What a board hears when an image is programmed, whatever drives the bus: one command for each word,
a latch that is seen to be set before each page, and each commit awaited before the next page. The
main result holds of every run that succeeds, and says all that is issued in it.
-/

namespace Reflash

open scoped Computability

namespace Rom

/-! ## What is to be heard -/

def Command.opensPage (cmd : Command) : Bool :=
  cmd.address.any fun address => address.toNat % pageBytes == 0

/-- These commands are issued in their order. The latch is confirmed right before each that opens a
page, and the commit is awaited right after each that closes one. Nothing else is issued. -/
def pageByPage (tries : Nat) : List Command → Language RomEvent
  | [] => 1
  | cmd :: rest =>
    (if cmd.opensPage then latchConfirmed else 1) *
      ({[.issued cmd]} * if cmd.endOfCommand then commitAwaited tries else 1) *
        pageByPage tries rest

theorem pageByPage_append (tries : Nat) (cmds cmds' : List Command) :
    pageByPage tries (cmds ++ cmds') = pageByPage tries cmds * pageByPage tries cmds' := by
  induction cmds with
  | nil => exact (one_mul _).symm
  | cons cmd rest ih =>
      rw [List.cons_append, pageByPage, ih, pageByPage, mul_assoc _ _ (pageByPage tries cmds')]

def wordCommand (index : Nat) (word : UInt32) (closing : Bool) : Command :=
  { opcode := .pageProgram
    address := some (wordAddress index)
    data := some word
    endOfCommand := closing }

def wordCommands (index : Nat) : List UInt32 → List Command
  | [] => []
  | word :: rest => wordCommand index word (endsPage index) :: wordCommands (index + 1) rest

/-- The commands that program an image: one for each word, and one for the flush word, which closes
the last page. -/
def imageCommands (words : List UInt32) : List Command :=
  (words ++ [flushWord]).mapIdx fun index word =>
    wordCommand index word (endsPage index || index == words.length)

def Command.page? (cmd : Command) : Option Nat :=
  cmd.address.map fun address => address.toNat / pageBytes

/-- Commands that fill one page after another: a page is opened by the first of them and behind each
that closes one, and nowhere else, and from one that closes a page to the next all are on one
page. -/
structure FillsPages (cmds : List Command) : Prop where
  first : ∀ cmd, cmds[0]? = some cmd → cmd.opensPage = true
  opens_behind_closing : ∀ k cmd next, cmds[k]? = some cmd → cmds[k + 1]? = some next →
    next.opensPage = cmd.endOfCommand
  one_page : ∀ (i j : Nat) (cmd cmd' : Command), i ≤ j → cmds[i]? = some cmd →
    cmds[j]? = some cmd' →
    (∀ (k : Nat) (between : Command), i ≤ k → k < j → cmds[k]? = some between →
      between.endOfCommand = false) →
    cmd.page? = cmd'.page?

theorem wordCommands_eq_mapIdx (index : Nat) (words : List UInt32) :
    wordCommands index words = words.mapIdx fun k word =>
      wordCommand (index + k) word (endsPage (index + k)) := by
  induction words generalizing index with
  | nil => rfl
  | cons word rest ih =>
      have hnext (k : Nat) : index + 1 + k = index + (k + 1) := by omega
      rw [wordCommands, ih, List.mapIdx_cons]
      simp only [hnext, Nat.add_zero]

theorem imageCommands_eq (words : List UInt32) :
    imageCommands words = wordCommands 0 words ++ [wordCommand words.length flushWord true] := by
  have hwords : words.mapIdx (fun k word =>
      wordCommand k word (endsPage k || k == words.length)) = wordCommands 0 words := by
    rw [wordCommands_eq_mapIdx]
    apply List.mapIdx_eq_mapIdx_iff.mpr
    intro k hk
    have hbefore : (k == words.length) = false := beq_eq_false_iff_ne.mpr (Nat.ne_of_lt hk)
    rw [hbefore, Bool.or_false, Nat.zero_add]
  rw [imageCommands, List.mapIdx_append, hwords]
  simp

variable {index : Nat} {word : UInt32} {closing : Bool}

theorem programCommand_wordAddress (h : index < capacity / wordBytes) :
    Board.programCommand (wordAddress index) word closing = wordCommand index word closing := by
  rw [Board.programCommand, Command.atAddress, wordAddress_and_addressMask h]
  rfl

theorem isAddressable_wordCommand (h : index < capacity / wordBytes) :
    (wordCommand index word closing).IsAddressable := by
  rw [← programCommand_wordAddress h]
  exact Board.isAddressable_programCommand _ _ _

theorem opensPage_wordCommand :
    (wordCommand index word closing).opensPage = ((wordAddress index).toNat % pageBytes == 0) :=
  Option.any_some

end Rom

/-! ## Sessions -/

namespace RomCounts

def wrote (c : RomCounts) (cmds : List Rom.Command) : RomCounts :=
  { c with
    pageWaits := c.pageWaits + cmds.countP (·.endOfCommand)
    endOfCommands := c.endOfCommands + cmds.countP (·.endOfCommand)
    writeEnables := c.writeEnables + cmds.countP (·.opensPage)
    wordsWritten := c.wordsWritten + cmds.length }

theorem wrote_wordCommand (c : RomCounts) (index : Nat) (word : UInt32) (closing : Bool) :
    c.wrote [Rom.wordCommand index word closing] =
      { c with
        pageWaits := c.pageWaits + closing.toNat
        endOfCommands := c.endOfCommands + closing.toNat
        writeEnables :=
          c.writeEnables + ((Rom.wordAddress index).toNat % Rom.pageBytes == 0).toNat
        wordsWritten := c.wordsWritten + 1 } := by
  have hcount (p : Rom.Command → Bool) (cmd : Rom.Command) : [cmd].countP p = (p cmd).toNat := by
    rw [List.countP_singleton]
    cases p cmd <;> rfl
  rw [wrote, hcount, hcount, Rom.opensPage_wordCommand, List.length_singleton]
  rfl

theorem wrote_wrote (c : RomCounts) (cmds cmds' : List Rom.Command) :
    (c.wrote cmds).wrote cmds' = c.wrote (cmds ++ cmds') := by
  simp [wrote, List.countP_append, Nat.add_assoc]

end RomCounts

namespace RomSession

open RomJob (IsHeard)

variable {b : Board} {budgets : Budgets} (hb : b.Fits)
include hb

section Words

variable {index : Nat} {word : UInt32} {closing : Bool} {onTick : Exchange Unit}

theorem isHeard_putWord (hindex : index < Rom.capacity / Rom.wordBytes) :
    IsHeard b budgets (putWord (Rom.wordAddress index) word closing)
      (fun _ => {[.issued (Rom.wordCommand index word closing)]} *
        if closing then Rom.commitAwaited budgets.pageTries else 1)
      fun c =>
        { c with
          pageWaits := c.pageWaits + closing.toNat
          endOfCommands := c.endOfCommands + closing.toNat
          wordsWritten := c.wordsWritten + 1 } := by
  have hcommand : IsHeard b budgets (command (Rom.wordCommand index word closing)) _ _ :=
    isHeard_command hb (Rom.isAddressable_wordCommand hindex)
  have hwait : IsHeard b budgets
      (if closing then do
        count fun c => { c with pageWaits := c.pageWaits + 1 }
        let _ ← awaitWrite (← Routine.get).budgets.pageTries Exchange.silent
      else pure () : RomJob Unit)
      (fun _ => if closing then Rom.commitAwaited budgets.pageTries else 1)
      fun c => { c with pageWaits := c.pageWaits + closing.toNat } := by
    cases closing with
    | false => exact .pure rfl
    | true =>
        have hover (s : RomSession) (hbudgets : s.budgets = budgets) :
            IsHeard b budgets
              (awaitWrite s.budgets.pageTries Exchange.silent >>= fun _ => pure () : RomJob Unit)
              (fun _ => Rom.commitAwaited budgets.pageTries) id := by
          rw [hbudgets]
          exact .bind_quiet (isHeard_awaitWrite hb Exchange.isSilent_silent _)
            (fun _ => .pure rfl) fun _ => rfl
        exact .count_bind (.get_bind fun s _ hbudgets => hover s hbudgets) fun _ => rfl
  rw [putWord, Rom.programCommand_wordAddress hindex]
  exact .bind_mul hcommand (fun _ => .count_bind hwait fun _ => rfl) fun _ => rfl

theorem isHeard_writeWord (hindex : index < Rom.capacity / Rom.wordBytes) :
    IsHeard b budgets (writeWord (Rom.wordAddress index) word closing)
      (fun _ => Rom.pageByPage budgets.pageTries [Rom.wordCommand index word closing])
      fun c => c.wrote [Rom.wordCommand index word closing] := by
  have hput : IsHeard b budgets (putWord (Rom.wordAddress index) word closing) _ _ :=
    isHeard_putWord hb hindex
  rw [writeWord_eq, Rom.pageByPage, Rom.pageByPage, mul_one, Rom.opensPage_wordCommand]
  by_cases hfirst : (Rom.wordAddress index).toNat % Rom.pageBytes = 0
  · have hopens : ((Rom.wordAddress index).toNat % Rom.pageBytes == 0) = true :=
      beq_iff_eq.mpr hfirst
    rw [if_pos hfirst, if_pos hopens]
    refine .bind_mul (isHeard_enableWrites hb) (fun _ => hput) fun c => ?_
    rw [RomCounts.wrote_wordCommand, hopens]
    rfl
  · have hopens : ((Rom.wordAddress index).toNat % Rom.pageBytes == 0) = false :=
      beq_eq_false_iff_ne.mpr hfirst
    rw [if_neg hfirst, hopens, if_neg Bool.false_ne_true, one_mul]
    refine hput.congr fun c => ?_
    rw [RomCounts.wrote_wordCommand, hopens]
    rfl

theorem isHeard_writeWordsFrom (hticks : onTick.IsSilent) {words : List UInt32}
    (hsize : index + words.length ≤ Rom.capacity / Rom.wordBytes) :
    IsHeard b budgets (writeWordsFrom onTick index words)
      (fun behind => {t | behind = index + words.length ∧
        t ∈ Rom.pageByPage budgets.pageTries (Rom.wordCommands index words)})
      fun c => c.wrote (Rom.wordCommands index words) := by
  induction words generalizing index with
  | nil => exact .pure ⟨rfl, rfl⟩
  | cons word rest ih =>
      rw [List.length_cons] at hsize
      have hindex : index < Rom.capacity / Rom.wordBytes := by omega
      have hword : IsHeard b budgets
          (writeWord (Rom.wordAddress index) word (Rom.endsPage index)) _ _ :=
        isHeard_writeWord hb hindex
      refine .bind hword (fun _ _ _ => .lift_bind hticks (ih (by omega))) ?_ fun c => ?_
      · rintro - behind first hfirst later ⟨hbehind, hlater⟩
        refine ⟨?_, ?_⟩
        · rw [hbehind, List.length_cons]
          omega
        · rw [Rom.wordCommands, ← List.singleton_append, Rom.pageByPage_append]
          exact Language.append_mem_mul hfirst hlater
      · rw [RomCounts.wrote_wrote]
        rfl

end Words

theorem isHeard_program {onTick : Exchange Unit} (hticks : onTick.IsSilent) {image : Image}
    {words : List UInt32} (himage : image.contents? = some words)
    (hsize : image.sizeBytes ≤ Rom.maxImageBytes) :
    IsHeard b budgets (program image onTick)
      (fun _ => Rom.pageByPage budgets.pageTries (Rom.imageCommands words))
      fun c => c.wrote (Rom.imageCommands words) := by
  have hlength := image.length_lt himage hsize
  have hwords : IsHeard b budgets (writeWordsFrom onTick 0 words) _ _ :=
    isHeard_writeWordsFrom hb hticks (by omega)
  have hflush (behind : Nat) (hbehind : behind = 0 + words.length) :
      IsHeard b budgets (writeWord (Rom.wordAddress behind) Rom.flushWord true)
        (fun _ => Rom.pageByPage budgets.pageTries
          [Rom.wordCommand words.length Rom.flushWord true])
        fun c => c.wrote [Rom.wordCommand words.length Rom.flushWord true] := by
    rw [hbehind, Nat.zero_add]
    exact isHeard_writeWord hb hlength
  rw [program_eq himage hsize, Rom.imageCommands_eq]
  refine .bind hwords (fun behind _ ht => hflush behind ht.1) ?_ fun c => c.wrote_wrote _ _
  rintro behind - first ⟨-, hfirst⟩ last hlast
  rw [Rom.pageByPage_append]
  exact Language.append_mem_mul hfirst hlast

end RomSession

/-! ## Pages of an image -/

namespace Rom

theorem countP_opensPage_wordCommands (index : Nat) (words : List UInt32)
    (hsize : index + words.length ≤ capacity / wordBytes) :
    (wordCommands index words).countP (·.opensPage) + (index + 63) / 64 =
      (index + words.length + 63) / 64 := by
  induction words generalizing index with
  | nil => simp [wordCommands]
  | cons word rest ih =>
      rw [List.length_cons] at hsize ⊢
      have hindex : index < capacity / wordBytes := by omega
      have hrest := ih (index + 1) (by omega)
      have hopens : (wordCommand index word (endsPage index)).opensPage = true ↔
          index % 64 = 0 := by
        rw [opensPage_wordCommand, beq_iff_eq]
        exact wordAddress_mod_pageBytes hindex
      rw [wordCommands, List.countP_cons]
      split
      next hfirst =>
        have hmod := hopens.mp hfirst
        omega
      next hlater =>
        have hmod := mt hopens.mpr hlater
        omega

theorem countP_endOfCommand_wordCommands (index : Nat) (words : List UInt32) :
    (wordCommands index words).countP (·.endOfCommand) + index / 64 =
      (index + words.length) / 64 := by
  induction words generalizing index with
  | nil => simp [wordCommands]
  | cons word rest ih =>
      have hrest := ih (index + 1)
      have hcloses : (wordCommand index word (endsPage index)).endOfCommand = true ↔
          (index + 1) % 64 = 0 := beq_iff_eq
      rw [List.length_cons, wordCommands, List.countP_cons]
      split
      next hlast =>
        have hmod := hcloses.mp hlast
        omega
      next hbefore =>
        have hmod := mt hcloses.mpr hbefore
        omega

section Image

variable {words : List UInt32} (hsize : words.length < capacity / wordBytes)
include hsize

theorem countP_opensPage_imageCommands :
    (imageCommands words).countP (·.opensPage) = words.length / pageWords + 1 := by
  have hwords : pageWords = 64 := rfl
  have hcount := countP_opensPage_wordCommands 0 words (by omega)
  have hflush : (wordCommand words.length flushWord true).opensPage = true ↔
      words.length % 64 = 0 := by
    rw [opensPage_wordCommand, beq_iff_eq]
    exact wordAddress_mod_pageBytes hsize
  rw [imageCommands_eq, List.countP_append, List.countP_singleton, hwords]
  split
  next hfirst =>
    have hmod := hflush.mp hfirst
    omega
  next hlater =>
    have hmod := mt hflush.mpr hlater
    omega

omit hsize in
theorem countP_endOfCommand_imageCommands (words : List UInt32) :
    (imageCommands words).countP (·.endOfCommand) = words.length / pageWords + 1 := by
  have hwords : pageWords = 64 := rfl
  have hflush : (wordCommand words.length flushWord true).endOfCommand = true := rfl
  have hcount := countP_endOfCommand_wordCommands 0 words
  rw [imageCommands_eq, List.countP_append, List.countP_singleton, if_pos hflush, hwords]
  omega

omit hsize in
theorem length_imageCommands (words : List UInt32) :
    (imageCommands words).length = words.length + 1 := by
  rw [imageCommands, List.length_mapIdx, List.length_append, List.length_singleton]

omit hsize in
theorem getElem?_imageCommands {words : List UInt32} {k : Nat} (hk : k ≤ words.length) :
    ∃ word, (imageCommands words)[k]? =
      some (wordCommand k word (endsPage k || k == words.length)) := by
  have hlt : k < (words ++ [flushWord]).length := by
    rw [List.length_append, List.length_singleton]
    omega
  refine ⟨(words ++ [flushWord])[k], ?_⟩
  rw [imageCommands, List.getElem?_mapIdx, List.getElem?_eq_getElem hlt, Option.map_some]

omit hsize in
theorem exists_of_getElem?_imageCommands {words : List UInt32} {k : Nat} {cmd : Command}
    (h : (imageCommands words)[k]? = some cmd) :
    k ≤ words.length ∧ ∃ word, cmd = wordCommand k word (endsPage k || k == words.length) := by
  have hk : k < (imageCommands words).length := (List.getElem?_eq_some_iff.mp h).1
  rw [length_imageCommands] at hk
  have hle : k ≤ words.length := Nat.le_of_lt_succ hk
  rcases getElem?_imageCommands hle with ⟨word, hword⟩
  exact ⟨hle, word, Option.some.inj (h.symm.trans hword)⟩

theorem fillsPages_imageCommands : FillsPages (imageCommands words) := by
  have hopens (k : Nat) (hk : k ≤ words.length) (word : UInt32) (closing : Bool) :
      (wordCommand k word closing).opensPage = true ↔ k % 64 = 0 := by
    rw [opensPage_wordCommand, beq_iff_eq]
    exact wordAddress_mod_pageBytes (by omega)
  have hpage (k : Nat) (hk : k ≤ words.length) (word : UInt32) (closing : Bool) :
      (wordCommand k word closing).page? = some (k / 64) := by
    have haddress : (wordAddress k).toNat = k * 4 := toNat_wordAddress (by omega)
    have hdiv : k * 4 / 256 = k / 64 := by omega
    show some ((wordAddress k).toNat / 256) = _
    rw [haddress, hdiv]
  constructor
  · intro cmd hcmd
    rcases exists_of_getElem?_imageCommands hcmd with ⟨hle, word, rfl⟩
    exact (hopens 0 hle word _).mpr rfl
  · intro k cmd next hcmd hnext
    rcases exists_of_getElem?_imageCommands hcmd with ⟨-, word, rfl⟩
    rcases exists_of_getElem?_imageCommands hnext with ⟨hle, word', rfl⟩
    have hbefore : (k == words.length) = false := beq_eq_false_iff_ne.mpr (by omega)
    have hcloses : (wordCommand k word (endsPage k || k == words.length)).endOfCommand = true ↔
        (k + 1) % 64 = 0 := by
      show (endsPage k || k == words.length) = true ↔ _
      rw [hbefore, Bool.or_false]
      exact beq_iff_eq
    exact Bool.eq_iff_iff.mpr ((hopens (k + 1) hle word' _).trans hcloses.symm)
  · intro i j cmd cmd' hij hcmd hcmd' hbetween
    rcases exists_of_getElem?_imageCommands hcmd with ⟨hi, word, rfl⟩
    rcases exists_of_getElem?_imageCommands hcmd' with ⟨hj, word', rfl⟩
    rw [hpage i hi, hpage j hj]
    -- The page of an index changes only behind an index that ends its page.
    have hstays : ∀ k, i ≤ k → k < j → (k + 1) % 64 ≠ 0 := by
      intro k hik hkj hmod
      rcases getElem?_imageCommands (by omega : k ≤ words.length) with ⟨between, hk⟩
      have hopen : (endsPage k || k == words.length) = false := hbetween k _ hik hkj hk
      have hends : endsPage k = true := beq_iff_eq.mpr hmod
      rw [hends] at hopen
      cases hopen
    clear hcmd' hbetween hj
    induction j, hij using Nat.le_induction with
    | base => rfl
    | succ k hik ih =>
        have hmod := hstays k hik (Nat.lt_succ_self k)
        have hsame : some (i / 64) = some (k / 64) :=
          ih fun m him hmk => hstays m him (Nat.lt_succ_of_lt hmk)
        rw [hsame]
        congr 1
        omega

end Image

theorem opcode_of_mem_imageCommands {words : List UInt32} {cmd : Command}
    (h : cmd ∈ imageCommands words) : cmd.opcode = .pageProgram := by
  rcases List.getElem?_of_mem h with ⟨k, hk⟩
  rcases exists_of_getElem?_imageCommands hk with ⟨-, word, rfl⟩
  rfl

end Rom

/-! ## Page-program commands that are heard -/

def RomEvent.program? : RomEvent → Option Rom.Command
  | issued cmd => if cmd.opcode = .pageProgram then some cmd else none
  | answered _ => none

namespace Rom

theorem filterMap_statusReads (statuses : List UInt32) :
    (statusReads statuses).filterMap RomEvent.program? = [] := by
  rw [statusReads, List.filterMap_flatMap]
  exact List.flatMap_eq_nil_iff.mpr fun _ _ => rfl

/-- Between the commands of a page no other word is programmed. -/
theorem filterMap_of_mem_pageByPage {tries : Nat} {cmds : List Command} {events : List RomEvent}
    (hcmds : ∀ cmd ∈ cmds, cmd.opcode = .pageProgram) (h : events ∈ pageByPage tries cmds) :
    events.filterMap RomEvent.program? = cmds := by
  induction cmds generalizing events with
  | nil =>
      have hnone : events = [] := h
      rw [hnone]
      rfl
  | cons cmd rest ih =>
      rcases List.forall_mem_cons.mp hcmds with ⟨hcmd, hrest⟩
      rcases Language.mem_mul.mp h with ⟨first, hfirst, later, hlater, rfl⟩
      rcases Language.mem_mul.mp hfirst with ⟨latch, hlatch, word, hword, rfl⟩
      rcases Language.mem_mul.mp hword with ⟨issued, rfl, wait, hwait, rfl⟩
      have hlatched : latch.filterMap RomEvent.program? = [] := by
        split at hlatch
        · rcases hlatch with ⟨status, -, rfl⟩
          rfl
        · rw [show latch = [] from hlatch]
          rfl
      have hwaited : wait.filterMap RomEvent.program? = [] := by
        split at hwait
        · rcases hwait with ⟨busy, last, -, -, -, rfl⟩
          exact filterMap_statusReads _
        · rw [show wait = [] from hwait]
          rfl
      have hissued : [RomEvent.issued cmd].filterMap RomEvent.program? = [cmd] := by
        simp [RomEvent.program?, hcmd]
      rw [List.filterMap_append, List.filterMap_append, List.filterMap_append, hlatched, hissued,
        hwaited, ih hrest hlater]
      rfl

end Rom

/-! ## Runs on a bus -/

namespace RomSession

theorem sizeBytes_le_of_ends {s s' : RomSession} {cycles : List Access} {onTick : Exchange Unit}
    {image : Image} (h : (program image onTick).Ends s cycles (.ok ()) s') :
    image.sizeBytes ≤ Rom.maxImageBytes := by
  rw [program] at h
  split at h
  next =>
    rcases Routine.ends_fail.mp h with ⟨-, habsurd, -⟩
    cases habsurd
  next words _ =>
    split at h
    next =>
      rcases Routine.ends_fail.mp h with ⟨-, habsurd, -⟩
      cases habsurd
    next hsize => exact Nat.not_lt.mp hsize

/-- On any bus, programming that succeeds has issued exactly the commands of the image, page by
page: each page is opened by a latch that was seen to be set, and closed by one commit that was
awaited within its budget. The words between two closings are on one page, no address is cut off,
and the counts tell how many pages and words it was. -/
theorem program_page_by_page {σ : Type} [Bus σ] (w : σ) {s : RomSession} (hb : s.board.Fits)
    {image : Image} {words : List UInt32} (himage : image.contents? = some words)
    {onTick : Exchange Unit} (hticks : onTick.IsSilent)
    (hok : ((program image onTick s).run Bus.handler w).1.1 = .ok ()) :
    let cmds := Rom.imageCommands words
    let events := s.board.heard (Exchange.cycles (program image onTick s) w)
    let pages := words.length / Rom.pageWords + 1
    events ∈ Rom.pageByPage s.budgets.pageTries cmds ∧
    events.filterMap RomEvent.program? = cmds ∧
    Rom.FillsPages cmds ∧
    (∀ k ≤ words.length,
      (Rom.wordAddress k).toNat = 4 * k ∧ 4 * k ≤ Rom.addressMask.toNat) ∧
    ((program image onTick s).run Bus.handler w).1.2 =
      { s with
        counts :=
          { s.counts with
            pageWaits := s.counts.pageWaits + pages
            endOfCommands := s.counts.endOfCommands + pages
            writeEnables := s.counts.writeEnables + pages
            wordsWritten := s.counts.wordsWritten + (words.length + 1) } } := by
  intro cmds events pages
  have hends := Routine.ends_run (program image onTick) s w
  rw [hok] at hends
  have hsize := sizeBytes_le_of_ends hends
  have hlength : words.length < Rom.capacity / Rom.wordBytes := image.length_lt himage hsize
  have hheard : RomJob.IsHeard s.board s.budgets (program image onTick) _ _ :=
    isHeard_program hb hticks himage hsize
  rcases hheard rfl rfl hends with ⟨⟨t, ht, hhears⟩, hstate⟩
  have hevents : events = t := hhears.heard_eq
  rw [hevents]
  refine ⟨ht, ?_, Rom.fillsPages_imageCommands hlength, ?_, ?_⟩
  · exact Rom.filterMap_of_mem_pageByPage (fun cmd => Rom.opcode_of_mem_imageCommands) ht
  · intro k hk
    have haddress : (Rom.wordAddress k).toNat = k * 4 := Rom.toNat_wordAddress (by omega)
    have hmask : Rom.addressMask.toNat = 0xFFFFFF := rfl
    have hwords : Rom.capacity / Rom.wordBytes = 0x400000 := rfl
    omega
  · rw [hstate, RomCounts.wrote, Rom.countP_opensPage_imageCommands hlength,
      Rom.countP_endOfCommand_imageCommands, Rom.length_imageCommands]

theorem program_page_by_page_steady :
    (Board.geographic .first).Fits ∧
      let s : RomSession := { board := .geographic .first, budgets := {}, timing := .immediate }
      let job := program (.ofWords [7, 8]) Exchange.silent s
      let after := job.run Bus.handler (SteadyBus.mk 2)
      after.1.1 = .ok () ∧
        after.1.2.counts =
          { pageWaits := 1, endOfCommands := 1, writeEnables := 1, wordsWritten := 3 } ∧
        ((Board.geographic .first).heard (Exchange.cycles job (SteadyBus.mk 2))).filterMap
            RomEvent.program? =
          [Rom.wordCommand 0 7 false, Rom.wordCommand 1 8 false,
            Rom.wordCommand 2 Rom.flushWord true] := by
  have hb : (Board.geographic .first).Fits := by decide
  have hok : ((program (.ofWords [7, 8]) Exchange.silent
      { board := .geographic .first, budgets := {}, timing := .immediate }).run Bus.handler
        (SteadyBus.mk 2)).1.1 = .ok () := rfl
  rcases program_page_by_page (SteadyBus.mk 2) hb rfl Exchange.isSilent_silent hok with
    ⟨-, hprogram, -, -, hstate⟩
  exact ⟨hb, hok, congrArg RomSession.counts hstate, hprogram⟩

end RomSession
end Reflash
