import Reflash.Proofs.Bus.Ticks
import Reflash.Proofs.Rom.Causes
import Reflash.Proofs.Rom.Geometry
import Reflash.Proofs.Rom.Heard
/-!
# Reading back, all or nothing

What is heard when a ROM is read back, and what the image holds then, whatever drives the bus. The
engine may stop answering before any command and before any answer; `RomJob.TimesOut` says that a
part of a session fails for nothing else, and what is heard of it by then. So some first words have
been read when a download fails, and the image holds none of them.
-/

namespace Reflash

open scoped Computability

namespace Rom

def readingOf (index : Nat) : Command :=
  { opcode := .autoRead, address := some (wordAddress index), endOfCommand := endsPage index }

def readings (index : Nat) : List UInt32 → List RomEvent
  | [] => []
  | word :: rest => .issued (readingOf index) :: .answered word :: readings (index + 1) rest

variable {index : Nat}

theorem readCommand_wordAddress (h : index < capacity / wordBytes) :
    Board.readCommand (wordAddress index) (endsPage index) = readingOf index := by
  rw [Board.readCommand, Command.atAddress, wordAddress_and_addressMask h]
  rfl

theorem readingOf_operands (h : index < capacity / wordBytes) :
    ∃ address, (readingOf index).address = some address ∧ address.toNat = wordBytes * index ∧
      ((readingOf index).endOfCommand = true ↔ (index + 1) % pageWords = 0) := by
  refine ⟨wordAddress index, rfl, ?_, beq_iff_eq⟩
  rw [toNat_wordAddress h, Nat.mul_comm]

theorem isAddressable_readingOf (h : index < capacity / wordBytes) :
    (readingOf index).IsAddressable := by
  rw [← readCommand_wordAddress h]
  exact Board.isAddressable_readCommand _ _

end Rom

/-! ## Parts that time out -/

namespace Routine

variable {σ ε α : Type} {s s' : σ} {cycles : List Access} {out : Outcome ε α}

/-- A routine that stays on the bus and has nothing to fail for succeeds. -/
theorem ok_of_ends {allowed : Request → Prop} {holds : σ → Prop} {r : Job σ ε α}
    (hkeeps : r.Keeps allowed holds) (hnone : r.Confines (fun _ => True) fun _ => False)
    (hs : holds s) (h : r.Ends s cycles out s') : ∃ a, out = .ok a := by
  have hbus := (hkeeps.of_ends hs h).2
  have hfails := (hnone.of_ends trivial h).2
  cases out with
  | ok a => exact ⟨a, rfl⟩
  | failed e => exact (hfails e rfl).elim
  | offBus => exact absurd rfl hbus

end Routine

namespace Board

variable {σ : Type} {b : Board} {s s' : σ} {cycles : List Access}

/-- A wait for the engine that does not succeed has used up its turns. Nothing is heard of it. -/
theorem ends_awaitReady_stopped (hb : b.Fits) {tries left : Nat} {out : Outcome RomError Nat}
    (h : (b.awaitReady tries left : Job σ RomError Nat).Ends s cycles out s')
    (hout : ∀ polls, out ≠ .ok polls) :
    out = .failed (.readyTimeout tries) ∧ b.Hears cycles [] := by
  have hpoll : (b.engineReady : Job σ RomError Bool).Keeps (fun _ => True) fun _ => True :=
    .bind (keeps_read hb (by decide) trivial) fun _ => .pure _
  have hnone : (b.engineReady : Job σ RomError Bool).Confines (fun _ => True) fun _ => False :=
    .bind (confines_read _) fun _ => .pure _
  induction left generalizing s cycles with
  | zero =>
      obtain ⟨rfl, rfl, -⟩ := Routine.ends_fail.mp h
      exact ⟨rfl, b.hears_nil⟩
  | succ left ih =>
      obtain ⟨before, ready, s₁, after, rfl, hfirst, hrest⟩ | ⟨e, -, hfirst⟩ | ⟨-, hfirst⟩ :=
        Routine.ends_bind.mp h
      · obtain ⟨⟨status, -, rfl⟩, rfl⟩ := ends_engineReady hb hfirst
        cases ready with
        | true =>
            obtain ⟨-, rfl, -⟩ := Routine.ends_pure.mp hrest
            exact absurd rfl (hout _)
        | false =>
            obtain ⟨hfailed, hmore⟩ := ih hrest
            exact ⟨hfailed, (b.hears_poll status).append hmore⟩
      · obtain ⟨_, habsurd⟩ := Routine.ok_of_ends hpoll hnone trivial hfirst
        cases habsurd
      · obtain ⟨_, habsurd⟩ := Routine.ok_of_ends hpoll hnone trivial hfirst
        cases habsurd

end Board

/-- If a part of a session with this board and within these budgets does not succeed, the engine was
not ready in time, and one of these event lists is heard. -/
def RomJob.TimesOut {α : Type} (b : Board) (budgets : Budgets) (work : RomJob α)
    (events : Language RomEvent) : Prop :=
  ∀ ⦃s s' cycles out⦄, s.board = b → s.budgets = budgets → work.Ends s cycles out s' →
    (∀ a, out ≠ .ok a) →
      out = .failed (.readyTimeout budgets.commandReadyTries) ∧ ∃ t ∈ events, b.Hears cycles t

namespace RomJob.TimesOut

variable {α β : Type} {b : Board} {budgets : Budgets} {work : RomJob α} {next : α → RomJob β}
  {l m m' : Language RomEvent} {counts : RomCounts → RomCounts}

theorem never (hkeeps : work.Keeps b.Drives fun s => s.board = b)
    (hnone : work.Confines (fun _ => True) fun _ => False) : RomJob.TimesOut b budgets work 0 := by
  intro s s' cycles out hb _ hends hout
  obtain ⟨a, rfl⟩ := Routine.ok_of_ends hkeeps hnone hb hends
  exact absurd rfl (hout a)

theorem bind {events : α → Language RomEvent} (hwork : RomJob.TimesOut b budgets work m)
    (hheard : RomJob.IsHeard b budgets work events counts) (hevents : ∀ a, ∀ t ∈ events a, t ∈ l)
    (hnext : ∀ a, RomJob.TimesOut b budgets (next a) m') :
    RomJob.TimesOut b budgets (work >>= next) (m + l * m') := by
  intro s s' cycles out hb hbudgets h hout
  obtain ⟨before, a, s₁, after, rfl, hfirst, hsecond⟩ | ⟨e, rfl, hfirst⟩ | ⟨rfl, hfirst⟩ :=
    Routine.ends_bind.mp h
  · obtain ⟨⟨t, ht, hhears⟩, rfl⟩ := hheard hb hbudgets hfirst
    -- Counting has not changed what the second part goes by.
    obtain ⟨hfailed, t', ht', hhears'⟩ :=
      hnext a (s := { s with counts := counts s.counts }) hb hbudgets hsecond hout
    exact ⟨hfailed, t ++ t', .inr (Language.append_mem_mul (hevents a t ht) ht'),
      hhears.append hhears'⟩
  · obtain ⟨hfailed, t, ht, hhears⟩ := hwork hb hbudgets hfirst nofun
    cases hfailed
    exact ⟨rfl, t, .inl ht, hhears⟩
  · obtain ⟨habsurd, -⟩ := hwork hb hbudgets hfirst nofun
    cases habsurd

theorem bind_never {events : α → Language RomEvent} (hwork : RomJob.TimesOut b budgets work m)
    (hheard : RomJob.IsHeard b budgets work events counts)
    (hnext : ∀ a, RomJob.TimesOut b budgets (next a) 0) :
    RomJob.TimesOut b budgets (work >>= next) m := by
  obtain ⟨all, hall⟩ : ∃ all : Language RomEvent, ∀ a, ∀ t ∈ events a, t ∈ all :=
    ⟨{t | ∃ a, t ∈ events a}, fun a _ ht => ⟨a, ht⟩⟩
  have hboth := hwork.bind hheard hall hnext
  rwa [mul_zero, add_zero] at hboth

theorem get_bind {next : RomSession → RomJob β}
    (hnext : ∀ s : RomSession, s.board = b → s.budgets = budgets →
      RomJob.TimesOut b budgets (next s) m) : RomJob.TimesOut b budgets (Routine.get >>= next) m :=
  fun s _ _ _ hb hbudgets h hout =>
    hnext s hb hbudgets hb hbudgets (Routine.ends_get_bind.mp h) hout

end RomJob.TimesOut

/-! ## One word -/

namespace RomSession

open RomJob (IsHeard TimesOut)

variable {b : Board} {budgets : Budgets} {cmd : Rom.Command} {index : Nat} (hb : b.Fits)
include hb

theorem timesOut_waitReady : TimesOut b budgets waitReady 1 := by
  refine .get_bind fun s hs hbudgets => ?_
  rw [hs, hbudgets]
  intro t t' cycles out _ _ h hout
  obtain ⟨_, polls, _, _, -, -, hpure⟩ | ⟨e, rfl, hwait⟩ | ⟨rfl, hwait⟩ := Routine.ends_bind.mp h
  · obtain ⟨-, rfl, -⟩ := Routine.ends_pure.mp hpure
    exact absurd rfl (hout ())
  · obtain ⟨hfailed, hhears⟩ := Board.ends_awaitReady_stopped hb hwait nofun
    cases hfailed
    exact ⟨rfl, [], rfl, hhears⟩
  · obtain ⟨habsurd, -⟩ := Board.ends_awaitReady_stopped hb hwait nofun
    cases habsurd

theorem timesOut_command (hcmd : cmd.IsAddressable) : TimesOut b budgets (command cmd) 1 := by
  refine (timesOut_waitReady hb).bind_never (isHeard_waitReady hb) fun _ => .never ?_ ?_
  · refine .get_bind fun s hs => ?_
    rw [hs]
    refine .bind (Board.keeps_issue_drives hb hcmd) fun _ => ?_
    exact .ite (keeps_count (knows_board b) _) (.pure ())
  · refine .get_bind fun s => .bind (Board.confines_issue cmd) fun _ => ?_
    exact .ite (.modify fun _ _ => trivial) (.pure ())

theorem isHeard_query (hcmd : cmd.IsAddressable) :
    IsHeard b budgets (query cmd) (fun value => {[.issued cmd, .answered value]}) fun c =>
      { c with endOfCommands := c.endOfCommands + cmd.endOfCommand.toNat } := by
  have hreadback : IsHeard b budgets b.readback (fun value => {[.answered value]}) id := by
    intro s s' cycles value _ _ h
    obtain ⟨rfl, rfl⟩ := Board.ends_readback hb h
    exact ⟨⟨_, rfl, b.hears_readback value⟩, rfl⟩
  have hanswer (s : RomSession) (hs : s.board = b) :
      IsHeard b budgets s.board.readback (fun value => {[.answered value]}) id := by
    rw [hs]
    exact hreadback
  refine .bind (isHeard_command hb hcmd) (fun _ _ _ => .quiet_bind (isHeard_waitReady hb)
    (fun _ => .get_bind fun s hs _ => hanswer s hs) fun _ => rfl) ?_ fun _ => rfl
  rintro - value t rfl t' rfl
  rfl

theorem timesOut_query (hcmd : cmd.IsAddressable) :
    TimesOut b budgets (query cmd) (1 + {[.issued cmd]}) := by
  have hanswer : TimesOut b budgets
      (waitReady >>= fun _ => Routine.get >>= fun s => s.board.readback) 1 := by
    refine (timesOut_waitReady hb).bind_never (isHeard_waitReady hb) fun _ => .never ?_ ?_
    · refine .get_bind fun s hs => ?_
      rw [hs]
      exact Board.keeps_readback hb (.inl rfl)
    · exact .get_bind fun s => Board.confines_read _
  have hboth := (timesOut_command hb hcmd).bind (isHeard_command hb hcmd) (fun _ _ ht => ht)
    fun _ => hanswer
  rwa [mul_one] at hboth

section Word

variable (hindex : index < Rom.capacity / Rom.wordBytes)
include hindex

omit hb in
theorem readWord_eq :
    readWord (Rom.wordAddress index) (Rom.endsPage index) = (do
      let word ← query (Rom.readingOf index)
      count fun c => { c with wordsRead := c.wordsRead + 1 }
      return word) := by
  rw [← Rom.readCommand_wordAddress hindex]
  rfl

theorem isHeard_readWord :
    IsHeard b budgets (readWord (Rom.wordAddress index) (Rom.endsPage index))
      (fun word => {Rom.readings index [word]}) fun c =>
        { c with
          endOfCommands := c.endOfCommands + (Rom.endsPage index).toNat
          wordsRead := c.wordsRead + 1 } := by
  have hcount (word : UInt32) : IsHeard b budgets
      (count (fun c => { c with wordsRead := c.wordsRead + 1 }) >>= fun _ => pure word)
      (fun word' => {t | word' = word ∧ t = []})
      fun c => { c with wordsRead := c.wordsRead + 1 } :=
    .count_bind (.pure ⟨rfl, rfl⟩) fun _ => rfl
  rw [readWord_eq hindex]
  refine .bind (isHeard_query hb (Rom.isAddressable_readingOf hindex)) (fun word _ _ => hcount word)
    ?_ fun _ => rfl
  rintro word word' t rfl t' ⟨rfl, rfl⟩
  rfl

theorem timesOut_readWord :
    TimesOut b budgets (readWord (Rom.wordAddress index) (Rom.endsPage index))
      (1 + {[.issued (Rom.readingOf index)]}) := by
  have hcmd := Rom.isAddressable_readingOf hindex
  rw [readWord_eq hindex]
  refine (timesOut_query hb hcmd).bind_never (isHeard_query hb hcmd) fun word => .never ?_ ?_
  · exact .bind (keeps_count (knows_board b) _) fun _ => .pure word
  · exact .bind (.modify fun _ _ => trivial) fun _ => .pure word

theorem ticks_readWord {ω : Type} [Bus ω] {s : RomSession} (hs : s.board = b) (w : ω) :
    Exchange.ticks (readWord (Rom.wordAddress index) (Rom.endsPage index) s) w = 0 := by
  have hkeeps : (readWord (Rom.wordAddress index) (Rom.endsPage index)).Keeps
      (fun r : Request => r.isTick = false) fun s => s.board = b := by
    have hquery : (query (Rom.readingOf index)).Keeps (fun r : Request => r.isTick = false)
        fun s => s.board = b := by
      refine keeps_query (knows_board b) hb ?_ ?_ (fun _ _ => ?_) ?_ <;> rfl
    rw [readWord_eq hindex]
    exact .bind hquery fun word => .bind (keeps_count (knows_board b) _) fun _ => .pure word
  exact Exchange.ticks_eq_zero (hkeeps s hs) w

end Word

end RomSession

/-! ## All words -/

/-- What reading some words comes to. The first of the words that are wanted have been read, and
either these are all of them, or the engine was not ready in time. Of a word that was not read the
command at most is heard. -/
inductive Board.ReadsWords (b : Board) (tries index count : Nat) (cycles : List Access)
    (words : List UInt32) : Option RomError → Prop
  | all (hlength : words.length = count) (hheard : b.Hears cycles (Rom.readings index words)) :
      ReadsWords b tries index count cycles words none
  | stopped {asked : List RomEvent} (hlength : words.length < count)
      (hasked : asked = [] ∨ asked = [.issued (Rom.readingOf (index + words.length))])
      (hheard : b.Hears cycles (Rom.readings index words ++ asked)) :
      ReadsWords b tries index count cycles words (some (.readyTimeout tries))

namespace Board.ReadsWords

variable {b : Board} {tries index count : Nat} {before after : List Access} {word : UInt32}
  {words : List UInt32} {error? : Option RomError}

theorem cons (hword : b.Hears before (Rom.readings index [word]))
    (h : b.ReadsWords tries (index + 1) count after words error?) :
    b.ReadsWords tries index (count + 1) (before ++ after) (word :: words) error? := by
  cases h with
  | all hlength hheard =>
      exact .all (congrArg Nat.succ hlength) (hword.append hheard)
  | stopped hlength hasked hheard =>
      refine .stopped (Nat.succ_lt_succ hlength) ?_ (hword.append hheard)
      rwa [List.length_cons, ← Nat.add_assoc, Nat.add_right_comm]

end Board.ReadsWords

namespace RomSession

variable {ω : Type} [Bus ω] {b : Board} {s : RomSession} (hb : b.Fits)
include hb

/-- Words are read until the engine is not ready in time, and for each one turn is told. -/
theorem makes_readWordsFrom (hs : s.board = b) {index count : Nat} (sofar : List UInt32)
    (hsize : index + count ≤ Rom.capacity / Rom.wordBytes) (w : ω) :
    ∃ cycles words error? s' w',
      (readWordsFrom Exchange.tick index sofar count).Makes s w cycles
        (error?.elim (.ok (sofar.reverse ++ words)) .failed) s' w' ∧
      Exchange.ticks (readWordsFrom Exchange.tick index sofar count s) w = words.length ∧
      b.ReadsWords s.budgets.commandReadyTries index count cycles words error? := by
  induction count generalizing s index sofar w with
  | zero =>
      refine ⟨[], [], none, s, w, ?_, rfl, .all rfl b.hears_nil⟩
      rw [List.append_nil]
      exact Routine.makes_pure _
  | succ count ih =>
      have hindex : index < Rom.capacity / Rom.wordBytes := by omega
      obtain ⟨cycles, out, s₁, w₁, hword⟩ :=
        (readWord (Rom.wordAddress index) (Rom.endsPage index)).exists_makes s w
      have hquiet := ticks_readWord hb hindex hs w
      have htimesOut := timesOut_readWord hb hindex hs rfl hword.ends
      rw [readWordsFrom]
      cases out with
      | ok word =>
          obtain ⟨⟨_, rfl, hheard⟩, hcounts⟩ := isHeard_readWord hb hindex hs rfl hword.ends
          have hs₁ : s₁.board = b := hcounts ▸ hs
          have hbudgets : s₁.budgets = s.budgets := hcounts ▸ rfl
          obtain ⟨more, words, error?, s', w', hrest, hticks, hreads⟩ :=
            ih hs₁ (word :: sofar) (by omega : index + 1 + count ≤ _) w₁
          rw [List.reverse_cons, List.append_assoc, List.singleton_append] at hrest
          rw [hbudgets] at hreads
          have htick := (Routine.makes_lift Exchange.isSilent_tick).silent_bind
            (f := fun _ => readWordsFrom Exchange.tick (index + 1) (word :: sofar) count) hrest
          refine ⟨cycles ++ more, word :: words, error?, s', w', hword.bind htick, ?_,
            hreads.cons hheard⟩
          rw [Routine.ticks_bind_ok hword.run_eq, hquiet, Routine.ticks_lift_tick_bind, hticks,
            Nat.zero_add, List.length_cons]
      | failed e =>
          obtain ⟨hfailed, asked, hasked, hheard⟩ := htimesOut nofun
          cases hfailed
          refine ⟨cycles, [], some _, s₁, w₁, hword.bind_failed, ?_,
            .stopped (Nat.succ_pos count) hasked hheard⟩
          rw [Routine.ticks_bind_failed hword.run_eq, hquiet]
          rfl
      | offBus =>
          obtain ⟨habsurd, -⟩ := htimesOut nofun
          cases habsurd

/-- The image has its new words once all of them have been read, and none until then. -/
theorem makes_download (hs : s.board = b) {sizeBytes : Nat}
    (haligned : sizeBytes % Rom.wordBytes = 0) (hsize : sizeBytes ≤ Rom.capacity) (image : Image)
    (w : ω) :
    ∃ cycles words error? s' w',
      (download sizeBytes Exchange.tick).Makes (s, image) w cycles (error?.elim (.ok ()) .failed)
        (s', error?.elim (image.fill words) fun _ => image.release) w' ∧
      Exchange.ticks (download sizeBytes Exchange.tick (s, image)) w = words.length ∧
      b.ReadsWords s.budgets.commandReadyTries 0 (sizeBytes / Rom.wordBytes) cycles words
        error? := by
  have hgood : ¬(sizeBytes % Rom.wordBytes ≠ 0 ∨ Rom.capacity < sizeBytes) := by omega
  have hcount : 0 + sizeBytes / Rom.wordBytes ≤ Rom.capacity / Rom.wordBytes := by
    rw [Nat.zero_add]
    exact Nat.div_le_div_right hsize
  obtain ⟨cycles, words, error?, s', w', hwords, hticks, hreads⟩ :=
    makes_readWordsFrom hb hs [] hcount w
  have hpart : ((readWords (sizeBytes / Rom.wordBytes) Exchange.tick).within Prod.fst
      fun p s => (s, p.2) : Job (RomSession × Image) RomError _).Makes (s, image.release) w cycles
        (error?.elim (.ok words) .failed) (s', image.release) w' :=
    Routine.Makes.within hwords
  refine ⟨cycles, words, error?, s', w', ?_, ?_, hreads⟩
  · rw [download, if_neg hgood]
    refine (Routine.makes_modify _).silent_bind ?_
    cases error? with
    | none => exact hpart.bind_silent (Routine.makes_modify _)
    | some e => exact hpart.bind_failed
  · rw [download, if_neg hgood, Routine.ticks_bind_ok (Routine.makes_modify _).run_eq, ← hticks]
    refine (Nat.zero_add _).trans ?_
    -- Filling the image tells nothing.
    cases error? with
    | none =>
        rw [Routine.ticks_bind_ok hpart.run_eq, Routine.ticks_within]
        rfl
    | some e =>
        rw [Routine.ticks_bind_failed hpart.run_eq, Routine.ticks_within]
        rfl

omit hb in
theorem makes_download_refused {sizeBytes : Nat}
    (hsize : sizeBytes % Rom.wordBytes ≠ 0 ∨ Rom.capacity < sizeBytes) (onTick : Exchange Unit)
    (image : Image) (w : ω) :
    (download sizeBytes onTick).Makes (s, image) w [] (.failed (.badTransferSize sizeBytes))
      (s, image) w := by
  rw [download, if_pos hsize]
  exact Routine.makes_fail _

end RomSession
end Reflash
