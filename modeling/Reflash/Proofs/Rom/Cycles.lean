import Mathlib.Computability.Language
import Reflash.Proofs.Rom.Conduct
/-!
# Bus cycles of ROM operations

Each operation on a ROM has a language: the sequences of bus cycles that it makes when it succeeds.
The languages are built as the operations are, from polls of the engine, the writes of a command
and reads of the readback register, and say which values the reads brought. The main facts are
that an operation that succeeds has made a word of its language, whatever drives the bus.
-/

namespace Reflash

open scoped Computability

theorem append_mem_kstar_mul {α : Type} {l m : Language α} {x y : List α} (hx : x ∈ l)
    (hy : y ∈ l∗ * m) : x ++ y ∈ l∗ * m := by
  obtain ⟨rounds, hrounds, last, hlast, rfl⟩ := Language.mem_mul.mp hy
  rw [← List.append_assoc]
  have hmore : x ++ rounds ∈ l∗ :=
    Set.mem_of_mem_of_subset (Language.append_mem_mul hx hrounds) (mul_kstar_le_kstar (a := l))
  exact Language.append_mem_mul hmore hlast

theorem mem_kstar_mul {α : Type} {l m : Language α} {x : List α} (hx : x ∈ m) : x ∈ l∗ * m :=
  Language.append_mem_mul (Language.nil_mem_kstar l) hx

namespace Board

/-! ## Languages -/

def resetPulse (b : Board) : Language Access :=
  {[.write (b.base + Register.reset) ResetRequest.both]}

def poll (b : Board) (ready : Bool) : Language Access :=
  {t | ∃ status, hasBits status EngineStatus.ready = ready ∧
    t = [.read (b.base + Register.engineStatus) status]}

/-- Polls of the command engine, of which the last and only the last finds it ready. -/
def readyPolls (b : Board) : Language Access := (b.poll false)∗ * b.poll true

def frameCycles (b : Board) (cmd : Rom.Command) : List Access :=
  cmd.frame.map fun (offset, value) => .write (b.base + offset) value

def commanded (b : Board) (cmd : Rom.Command) : Language Access :=
  b.readyPolls * {b.frameCycles cmd}

def answered (b : Board) (cmd : Rom.Command) (value : UInt32) : Language Access :=
  b.commanded cmd * (b.readyPolls * {[.read (b.base + Register.readback) value]})

def identified (b : Board) : Language Access :=
  {t | ∃ id, t ∈ b.answered { opcode := .readId } id}

/-- The ROM is asked for its status, in which some bits are all set, or not. -/
def statusShows (b : Board) (bits : UInt32) (shown : Bool) : Language Access :=
  {t | ∃ status, hasBits status bits = shown ∧ t ∈ b.answered { opcode := .readStatus } status}

/-- Status reads, of which the last and only the last shows no write in progress. -/
def writeOver (b : Board) : Language Access :=
  (b.statusShows RomStatus.writing true)∗ * b.statusShows RomStatus.writing false

def enabled (b : Board) : Language Access :=
  b.commanded { opcode := .writeEnable } * b.statusShows RomStatus.writeEnabled true

def eraseStarted (b : Board) : Language Access := b.enabled * b.commanded { opcode := .bulkErase }

/-- A word is programmed: the first of a page behind a write-enable, the last of a page with a wait
for the commit behind it. -/
def wordWritten (b : Board) (address word : UInt32) (lastOfPage : Bool) : Language Access :=
  (if address.toNat % Rom.pageBytes = 0 then b.enabled else 1) *
    (b.commanded (programCommand address word lastOfPage) * if lastOfPage then b.writeOver else 1)

def wordsWritten (b : Board) (index : Nat) : List UInt32 → Language Access
  | [] => 1
  | word :: rest =>
    b.wordWritten (Rom.wordAddress index) word (Rom.endsPage index) *
      b.wordsWritten (index + 1) rest

def programmed (b : Board) (words : List UInt32) : Language Access :=
  b.wordsWritten 0 words * b.wordWritten (Rom.wordAddress words.length) Rom.flushWord true

def wordsRead (b : Board) (index : Nat) : List UInt32 → Language Access
  | [] => 1
  | word :: rest =>
    b.answered (readCommand (Rom.wordAddress index) (Rom.endsPage index)) word *
      b.wordsRead (index + 1) rest

/-! ## Operations of a board -/

variable {σ ε : Type} {b : Board} {s s' : σ} {cycles : List Access}

theorem ends_read (hb : b.Fits) {offset : UInt32} (hoffset : offset ≤ Register.engineStatus)
    {out : Outcome ε UInt32} (h : (b.read offset : Job σ ε UInt32).Ends s cycles out s') :
    ∃ value, cycles = [.read (b.base + offset) value] ∧ out = .ok value ∧ s' = s := by
  rw [hb.read_eq hoffset] at h
  exact Job.ends_ask.mp h

theorem ends_writeAll (hb : b.Fits) {writes : List (UInt32 × UInt32)}
    (hwrites : ∀ w ∈ writes, w.1 ≤ Register.engineStatus) {out : Outcome ε Unit}
    (h : (b.writeAll writes : Job σ ε Unit).Ends s cycles out s') :
    cycles = (writes.map fun (offset, value) => .write (b.base + offset) value) ∧
      out = .ok () ∧ s' = s := by
  induction writes generalizing s cycles with
  | nil => exact Routine.ends_pure.mp h
  | cons w rest ih =>
      obtain ⟨hoffset, hrest⟩ := List.forall_mem_cons.mp hwrites
      rw [Board.writeAll, hb.write_eq hoffset] at h
      obtain ⟨_, after, rfl, hmore⟩ := Job.ends_ask_bind h
      obtain ⟨rfl, rfl, rfl⟩ := ih hrest hmore
      exact ⟨rfl, rfl, rfl⟩

theorem ends_issue (hb : b.Fits) {cmd : Rom.Command} (hcmd : cmd.IsAddressable)
    (h : (b.issue cmd : Job σ ε Unit).Ends s cycles (.ok ()) s') :
    cycles = b.frameCycles cmd ∧ s' = s := by
  have hoffsets : ∀ w ∈ cmd.frame, w.1 ≤ Register.engineStatus := fun w hw =>
    (drives_frame (b := b) hcmd w hw).1
  obtain ⟨rfl, -, rfl⟩ := ends_writeAll hb hoffsets (Job.ends_remark_bind h)
  exact ⟨rfl, rfl⟩

theorem ends_readback (hb : b.Fits) {value : UInt32}
    (h : (b.readback : Job σ ε UInt32).Ends s cycles (.ok value) s') :
    cycles = [.read (b.base + Register.readback) value] ∧ s' = s := by
  obtain ⟨value', rfl, hvalue, rfl⟩ := ends_read hb (by decide) h
  obtain rfl : value = value' := by simpa using hvalue
  exact ⟨rfl, rfl⟩

theorem ends_engineReady (hb : b.Fits) {ready : Bool}
    (h : (b.engineReady : Job σ ε Bool).Ends s cycles (.ok ready) s') :
    cycles ∈ b.poll ready ∧ s' = s := by
  obtain ⟨before, status, s₁, after, rfl, hread, hpure⟩ := Routine.ends_bind_ok.mp h
  obtain ⟨status', rfl, hstatus, rfl⟩ := ends_read hb (by decide) hread
  obtain ⟨rfl, hready, rfl⟩ := Routine.ends_pure.mp hpure
  obtain rfl : status = status' := by simpa using hstatus
  have hbits : ready = hasBits status EngineStatus.ready := by simpa using hready
  exact ⟨⟨status, hbits.symm, List.append_nil _⟩, rfl⟩

theorem ends_awaitReady (hb : b.Fits) {tries left polls : Nat}
    (h : (b.awaitReady tries left : Job σ RomError Nat).Ends s cycles (.ok polls) s') :
    cycles ∈ b.readyPolls ∧ s' = s := by
  induction left generalizing s cycles with
  | zero =>
      obtain ⟨-, habsurd, -⟩ := Routine.ends_fail.mp h
      cases habsurd
  | succ left ih =>
      obtain ⟨before, ready, s₁, after, rfl, hpoll, hrest⟩ := Routine.ends_bind_ok.mp h
      obtain ⟨hmem, rfl⟩ := ends_engineReady hb hpoll
      cases ready with
      | true =>
          obtain ⟨rfl, -, rfl⟩ := Routine.ends_pure.mp hrest
          rw [List.append_nil]
          exact ⟨mem_kstar_mul hmem, rfl⟩
      | false =>
          obtain ⟨hmore, rfl⟩ := ih hrest
          exact ⟨append_mem_kstar_mul hmem hmore, rfl⟩

theorem mem_commanded {cmd : Rom.Command} {polls : List Access} (hpolls : polls ∈ b.readyPolls) :
    polls ++ b.frameCycles cmd ∈ b.commanded cmd :=
  Language.append_mem_mul hpolls (Set.mem_singleton _)

theorem mem_answered {cmd : Rom.Command} {value : UInt32} {issued polls : List Access}
    (hissued : issued ∈ b.commanded cmd) (hpolls : polls ∈ b.readyPolls) :
    issued ++ (polls ++ [.read (b.base + Register.readback) value]) ∈ b.answered cmd value :=
  Language.append_mem_mul hissued (Language.append_mem_mul hpolls (Set.mem_singleton _))

theorem ends_readStatus (hb : b.Fits) {readyTries : Nat} {status : UInt32}
    (h : (b.readStatus readyTries : Job σ RomError UInt32).Ends s cycles (.ok status) s') :
    cycles ∈ b.answered { opcode := .readStatus } status ∧ s' = s := by
  obtain ⟨polls, _, _, _, rfl, hready, hissue⟩ := Routine.ends_bind_ok.mp h
  obtain ⟨hpolls, rfl⟩ := ends_awaitReady hb hready
  obtain ⟨frame, _, _, _, rfl, hframe, hanswer⟩ := Routine.ends_bind_ok.mp hissue
  obtain ⟨rfl, rfl⟩ := ends_issue hb (by simp [Rom.Command.IsAddressable]) hframe
  obtain ⟨polls', _, _, _, rfl, hready', hread⟩ := Routine.ends_bind_ok.mp hanswer
  obtain ⟨hpolls', rfl⟩ := ends_awaitReady hb hready'
  obtain ⟨rfl, rfl⟩ := ends_readback hb hread
  rw [← List.append_assoc]
  exact ⟨mem_answered (mem_commanded hpolls) hpolls', rfl⟩

theorem ends_awaitWrite (hb : b.Fits) {onTick : Exchange Unit} (hticks : onTick.IsSilent)
    {readyTries interval tries left polls : Nat}
    (h : (b.awaitWrite readyTries interval onTick tries left : Job σ RomError Nat).Ends s cycles
      (.ok polls) s') :
    cycles ∈ b.writeOver ∧ s' = s := by
  induction left generalizing s cycles with
  | zero =>
      obtain ⟨-, habsurd, -⟩ := Routine.ends_fail.mp h
      cases habsurd
  | succ left ih =>
      obtain ⟨before, status, s₁, after, rfl, hstatus, hrest⟩ := Routine.ends_bind_ok.mp h
      obtain ⟨hmem, rfl⟩ := ends_readStatus hb hstatus
      split at hrest
      next hbits =>
        have hagain := Job.ends_pause_bind (Routine.ends_lift_bind hticks hrest)
        obtain ⟨hmore, rfl⟩ := ih hagain
        exact ⟨append_mem_kstar_mul ⟨status, hbits, hmem⟩ hmore, rfl⟩
      next hbits =>
        have hpure := Job.ends_remark_bind hrest
        obtain ⟨rfl, -, rfl⟩ := Routine.ends_pure.mp hpure
        rw [List.append_nil]
        exact ⟨mem_kstar_mul ⟨status, Bool.eq_false_of_not_eq_true hbits, hmem⟩, rfl⟩

end Board

/-! ## Operations of a session -/

theorem RomJob.IsProper.board_eq {α : Type} {work : RomJob α} (hwork : RomJob.IsProper work)
    {b : Board} (hb : b.Fits) {s s' : RomSession} (hs : s.board = b) {cycles : List Access}
    {out : Outcome RomError α} (h : work.Ends s cycles out s') : s'.board = b :=
  ((hwork b hb).of_ends hs h).1

namespace RomSession

variable {b : Board} {s s' : RomSession} {cycles : List Access} {onTick : Exchange Unit}

/-- Counting changes nothing that the rest of a session goes by. -/
theorem ends_count_bind {α : Type} {f : RomCounts → RomCounts} {next : Unit → RomJob α}
    {out : Outcome RomError α} (h : (count f >>= next).Ends s cycles out s') :
    ∃ s₁ : RomSession, s₁.board = s.board ∧ (next ()).Ends s₁ cycles out s' :=
  ⟨{ s with counts := f s.counts }, rfl, h⟩

theorem ends_waitReady (hb : b.Fits) (hs : s.board = b)
    (h : waitReady.Ends s cycles (.ok ()) s') : cycles ∈ b.readyPolls ∧ s' = s := by
  subst hs
  obtain ⟨_, _, _, _, rfl, hready, hpure⟩ :=
    Routine.ends_bind_ok.mp (Routine.ends_get_bind.mp h)
  obtain ⟨hpolls, rfl⟩ := Board.ends_awaitReady hb hready
  obtain ⟨rfl, -, rfl⟩ := Routine.ends_pure.mp hpure
  rw [List.append_nil]
  exact ⟨hpolls, rfl⟩

theorem ends_awaitEngine (hb : b.Fits) (hs : s.board = b)
    (h : awaitEngine.Ends s cycles (.ok ()) s') : cycles ∈ b.readyPolls ∧ s' = s := by
  subst hs
  obtain ⟨_, _, _, _, rfl, hready, hpure⟩ :=
    Routine.ends_bind_ok.mp (Routine.ends_get_bind.mp h)
  obtain ⟨hpolls, rfl⟩ := Board.ends_awaitReady hb hready
  obtain ⟨rfl, -, rfl⟩ := Routine.ends_pure.mp hpure
  rw [List.append_nil]
  exact ⟨hpolls, rfl⟩

theorem ends_command (hb : b.Fits) (hs : s.board = b) {cmd : Rom.Command}
    (hcmd : cmd.IsAddressable) (h : (command cmd).Ends s cycles (.ok ()) s') :
    cycles ∈ b.commanded cmd := by
  obtain ⟨polls, _, s₁, _, rfl, hready, hissue⟩ := Routine.ends_bind_ok.mp h
  obtain ⟨hpolls, rfl⟩ := ends_waitReady hb hs hready
  rw [Routine.ends_get_bind, hs] at hissue
  obtain ⟨_, _, _, _, rfl, hwrites, hcount⟩ := Routine.ends_bind_ok.mp hissue
  obtain ⟨rfl, rfl⟩ := Board.ends_issue hb hcmd hwrites
  split at hcount
  next =>
    obtain ⟨rfl, -, -⟩ := Routine.ends_modify.mp hcount
    rw [List.append_nil]
    exact Board.mem_commanded hpolls
  next =>
    obtain ⟨rfl, -, -⟩ := Routine.ends_pure.mp hcount
    rw [List.append_nil]
    exact Board.mem_commanded hpolls

theorem ends_query (hb : b.Fits) (hs : s.board = b) {cmd : Rom.Command}
    (hcmd : cmd.IsAddressable) {value : UInt32} (h : (query cmd).Ends s cycles (.ok value) s') :
    cycles ∈ b.answered cmd value := by
  obtain ⟨issued, _, s₁, _, rfl, hcommand, hanswer⟩ := Routine.ends_bind_ok.mp h
  have hs₁ : s₁.board = b := (isProper_command hcmd).board_eq hb hs hcommand
  obtain ⟨polls, _, s₂, _, rfl, hready, hread⟩ := Routine.ends_bind_ok.mp hanswer
  obtain ⟨hpolls, rfl⟩ := ends_waitReady hb hs₁ hready
  rw [Routine.ends_get_bind, hs₁] at hread
  obtain ⟨rfl, -⟩ := Board.ends_readback hb hread
  exact Board.mem_answered (ends_command hb hs hcmd hcommand) hpolls

theorem ends_readId (hb : b.Fits) (hs : s.board = b) {id : UInt32}
    (h : readId.Ends s cycles (.ok id) s') : cycles ∈ b.identified :=
  ⟨id, ends_query hb hs (by simp [Rom.Command.IsAddressable]) h⟩

theorem ends_readStatus (hb : b.Fits) (hs : s.board = b) {status : UInt32}
    (h : readStatus.Ends s cycles (.ok status) s') :
    cycles ∈ b.answered { opcode := .readStatus } status := by
  subst hs
  have hread : (s.board.readStatus s.budgets.commandReadyTries : RomJob UInt32).Ends s cycles
    (.ok status) s' := h
  exact (Board.ends_readStatus hb hread).1

theorem ends_enableWrites (hb : b.Fits) (hs : s.board = b)
    (h : enableWrites.Ends s cycles (.ok ()) s') : cycles ∈ b.enabled := by
  have hcmd : Rom.Command.IsAddressable { opcode := .writeEnable } := by
    simp [Rom.Command.IsAddressable]
  obtain ⟨issued, _, s₁, _, rfl, hcommand, hcheck⟩ := Routine.ends_bind_ok.mp h
  have hs₁ : s₁.board = b := (isProper_command hcmd).board_eq hb hs hcommand
  obtain ⟨s₂, hs₂, hchecked⟩ := ends_count_bind hcheck
  obtain ⟨_, status, _, _, rfl, hread, hlatch⟩ := Routine.ends_bind_ok.mp hchecked
  have hstatus := ends_readStatus hb (hs₂.trans hs₁) hread
  split at hlatch
  next =>
    obtain ⟨-, habsurd, -⟩ := Routine.ends_fail.mp hlatch
    cases habsurd
  next hset =>
    obtain ⟨rfl, -, -⟩ := Routine.ends_pure.mp hlatch
    have hbits : hasBits status RomStatus.writeEnabled = true := by simpa using hset
    rw [List.append_nil]
    exact Language.append_mem_mul (ends_command hb hs hcmd hcommand) ⟨status, hbits, hstatus⟩

theorem ends_awaitWrite (hb : b.Fits) (hs : s.board = b) (hticks : onTick.IsSilent)
    {tries polls : Nat} (h : (awaitWrite tries onTick).Ends s cycles (.ok polls) s') :
    cycles ∈ b.writeOver := by
  subst hs
  have hwait : (s.board.waitWrite tries s.budgets.commandReadyTries s.timing.writePollInterval
    onTick : RomJob Nat).Ends s cycles (.ok polls) s' := h
  exact (Board.ends_awaitWrite hb hticks hwait).1

theorem ends_startErase (hb : b.Fits) (hs : s.board = b)
    (h : startErase.Ends s cycles (.ok ()) s') : cycles ∈ b.eraseStarted := by
  obtain ⟨_, _, s₁, _, rfl, henable, herase⟩ := Routine.ends_bind_ok.mp h
  have hs₁ : s₁.board = b := isProper_enableWrites.board_eq hb hs henable
  exact Language.append_mem_mul (ends_enableWrites hb hs henable)
    (ends_command hb hs₁ (by simp [Rom.Command.IsAddressable]) herase)

theorem ends_awaitErase (hb : b.Fits) (hs : s.board = b) (hticks : onTick.IsSilent)
    {polls : Nat} (h : (awaitErase onTick).Ends s cycles (.ok polls) s') :
    cycles ∈ b.writeOver := by
  obtain ⟨_, _, _, _, rfl, hover, hremark⟩ :=
    Routine.ends_bind_ok.mp (Routine.ends_get_bind.mp h)
  have hpure := Job.ends_remark_bind hremark
  obtain ⟨rfl, -, -⟩ := Routine.ends_pure.mp hpure
  rw [List.append_nil]
  exact ends_awaitWrite hb hs hticks hover

theorem ends_putWord (hb : b.Fits) (hs : s.board = b) {address word : UInt32} {lastOfPage : Bool}
    (h : (putWord address word lastOfPage).Ends s cycles (.ok ()) s') :
    cycles ∈ b.commanded (Board.programCommand address word lastOfPage) *
      if lastOfPage then b.writeOver else 1 := by
  have hcmd := Board.isAddressable_programCommand address word lastOfPage
  obtain ⟨_, _, s₂, _, rfl, hcommand, hcount⟩ := Routine.ends_bind_ok.mp h
  have hs₂ : s₂.board = b := (isProper_command hcmd).board_eq hb hs hcommand
  refine Language.append_mem_mul (ends_command hb hs hcmd hcommand) ?_
  obtain ⟨s₃, hs₃, hclose⟩ := ends_count_bind hcount
  cases lastOfPage with
  | false =>
      obtain ⟨rfl, -, -⟩ := Routine.ends_pure.mp hclose
      exact rfl
  | true =>
      obtain ⟨s₄, hs₄, hwait⟩ := ends_count_bind hclose
      obtain ⟨_, _, _, _, rfl, hover, hpure⟩ :=
        Routine.ends_bind_ok.mp (Routine.ends_get_bind.mp hwait)
      obtain ⟨rfl, -, -⟩ := Routine.ends_pure.mp hpure
      rw [List.append_nil]
      have hs₄' : s₄.board = b := hs₄.trans (hs₃.trans hs₂)
      exact ends_awaitWrite hb hs₄' Exchange.isSilent_silent hover

theorem ends_writeWord (hb : b.Fits) (hs : s.board = b) {address word : UInt32}
    {lastOfPage : Bool} (h : (writeWord address word lastOfPage).Ends s cycles (.ok ()) s') :
    cycles ∈ b.wordWritten address word lastOfPage := by
  rw [Board.wordWritten]
  rw [writeWord_eq] at h
  split at h
  next hfirst =>
    obtain ⟨_, _, s₁, _, rfl, henable, hlater⟩ := Routine.ends_bind_ok.mp h
    have hs₁ : s₁.board = b := isProper_enableWrites.board_eq hb hs henable
    rw [if_pos hfirst]
    exact Language.append_mem_mul (ends_enableWrites hb hs henable) (ends_putWord hb hs₁ hlater)
  next hlater =>
    rw [if_neg hlater, one_mul]
    exact ends_putWord hb hs h

theorem ends_writeWordsFrom (hb : b.Fits) (hs : s.board = b) (hticks : onTick.IsSilent)
    {index behind : Nat} {words : List UInt32}
    (h : (writeWordsFrom onTick index words).Ends s cycles (.ok behind) s') :
    cycles ∈ b.wordsWritten index words ∧ behind = index + words.length := by
  induction words generalizing s cycles index with
  | nil =>
      obtain ⟨rfl, hbehind, -⟩ := Routine.ends_pure.mp h
      exact ⟨rfl, by simpa using hbehind⟩
  | cons word rest ih =>
      obtain ⟨_, _, s₁, _, rfl, hword, hlater⟩ := Routine.ends_bind_ok.mp h
      have hs₁ : s₁.board = b := (isProper_writeWord _ _ _).board_eq hb hs hword
      obtain ⟨hrest, hbehind⟩ := ih hs₁ (Routine.ends_lift_bind hticks hlater)
      refine ⟨Language.append_mem_mul (ends_writeWord hb hs hword) hrest, ?_⟩
      rw [hbehind, List.length_cons]
      omega

/-- An image is programmed only if it is loaded, and then completely. -/
theorem ends_program (hb : b.Fits) (hs : s.board = b) (hticks : onTick.IsSilent) {image : Image}
    (h : (program image onTick).Ends s cycles (.ok ()) s') :
    ∃ words, image.contents? = some words ∧ cycles ∈ b.programmed words := by
  rw [program] at h
  cases hcontents : image.contents? with
  | none =>
      rw [hcontents] at h
      obtain ⟨-, habsurd, -⟩ := Routine.ends_fail.mp h
      cases habsurd
  | some words =>
      simp only [hcontents] at h
      split at h
      next =>
        obtain ⟨-, habsurd, -⟩ := Routine.ends_fail.mp h
        cases habsurd
      next =>
        obtain ⟨_, behind, s₁, _, rfl, hwords, hflush⟩ := Routine.ends_bind_ok.mp h
        have hs₁ : s₁.board = b :=
          (isProper_writeWordsFrom hticks _ _).board_eq hb hs hwords
        obtain ⟨hwritten, hbehind⟩ := ends_writeWordsFrom hb hs hticks hwords
        rw [Nat.zero_add] at hbehind
        subst hbehind
        exact ⟨words, rfl, Language.append_mem_mul hwritten (ends_writeWord hb hs₁ hflush)⟩

theorem ends_readWord (hb : b.Fits) (hs : s.board = b) {address word : UInt32}
    {lastOfPage : Bool} (h : (readWord address lastOfPage).Ends s cycles (.ok word) s') :
    cycles ∈ b.answered (Board.readCommand address lastOfPage) word := by
  obtain ⟨_, value, s₁, _, rfl, hquery, hcount⟩ := Routine.ends_bind_ok.mp h
  obtain ⟨s₂, -, hpure⟩ := ends_count_bind hcount
  obtain ⟨rfl, hvalue, -⟩ := Routine.ends_pure.mp hpure
  obtain rfl : word = value := by simpa using hvalue
  rw [List.append_nil]
  exact ends_query hb hs (Board.isAddressable_readCommand _ _) hquery

theorem ends_readWordsFrom (hb : b.Fits) (hs : s.board = b) (hticks : onTick.IsSilent)
    {index count : Nat} {sofar words : List UInt32}
    (h : (readWordsFrom onTick index sofar count).Ends s cycles (.ok words) s') :
    ∃ fresh, words = sofar.reverse ++ fresh ∧ fresh.length = count ∧
      cycles ∈ b.wordsRead index fresh := by
  induction count generalizing s cycles index sofar with
  | zero =>
      obtain ⟨rfl, hwords, -⟩ := Routine.ends_pure.mp h
      exact ⟨[], by simpa using hwords, rfl, rfl⟩
  | succ count ih =>
      obtain ⟨_, word, s₁, _, rfl, hword, hlater⟩ := Routine.ends_bind_ok.mp h
      have hs₁ : s₁.board = b := (isProper_readWord _ _).board_eq hb hs hword
      obtain ⟨fresh, rfl, hlength, hread⟩ := ih hs₁ (Routine.ends_lift_bind hticks hlater)
      refine ⟨word :: fresh, by simp, by simp [hlength], ?_⟩
      exact Language.append_mem_mul (ends_readWord hb hs hword) hread

/-- A download that succeeds leaves the image loaded with the words that were read. -/
theorem ends_download (hb : b.Fits) (hticks : onTick.IsSilent) {sizeBytes : Nat}
    {image image' : Image} (hs : s.board = b)
    (h : (download sizeBytes onTick).Ends (s, image) cycles (.ok ()) (s', image')) :
    ∃ words, image'.contents? = some words ∧ words.length = sizeBytes / Rom.wordBytes ∧
      cycles ∈ b.wordsRead 0 words := by
  rw [download] at h
  split at h
  next =>
    obtain ⟨-, habsurd, -⟩ := Routine.ends_fail.mp h
    cases habsurd
  next =>
    obtain ⟨_, words, p, _, rfl, hwords, hfill⟩ :=
      Routine.ends_bind_ok.mp (Routine.ends_modify_bind.mp h)
    obtain ⟨s₁, hwords', rfl⟩ := Routine.ends_within.mp hwords
    obtain ⟨rfl, -, hp⟩ := Routine.ends_modify.mp hfill
    obtain ⟨rfl, rfl⟩ := Prod.mk.injEq .. ▸ hp
    obtain ⟨fresh, hfresh, hlength, hcycles⟩ := ends_readWordsFrom hb hs hticks hwords'
    obtain rfl : words = fresh := by simpa using hfresh
    rw [List.append_nil]
    exact ⟨words, rfl, hlength, hcycles⟩

end RomSession
end Reflash
