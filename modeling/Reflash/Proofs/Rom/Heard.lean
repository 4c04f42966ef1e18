import Reflash.Proofs.Rom.Cycles
/-!
# Commands heard on the bus

What somebody who listens to the bus cycles of one board makes of them: the commands that its
command engine is given, each with the operands that were written for it, and the values that are
read back. Listening goes by the registers alone and knows nothing of who drives the bus, so what is
heard is what a board is really told. Of polls nothing is heard.

`RomJob.IsHeard` says what is heard of a part of a session that succeeds, and what the part counts.
It has one rule for each way to build a part.
-/

namespace Reflash

open scoped Computability

/-- The operands that have been written since the command register was last armed. -/
structure Operands where
  address : Option UInt32 := none
  data : Option UInt32 := none

inductive RomEvent where
  | issued (cmd : Rom.Command)
  | answered (value : UInt32)
  deriving DecidableEq

def Operands.command? (ops : Operands) (word : UInt32) : Option Rom.Command :=
  if hasBits word Control.reboot then none
  else
    (Rom.Opcode.ofByte? (word &&& Control.opcodeField).toUInt8).map fun opcode =>
      { opcode
        address := ops.address
        data := ops.data
        endOfCommand := hasBits word Control.endOfCommand }

namespace Board

/-- What is heard in one cycle, with the operands that are pending after it. Nothing is pending
while the execute bit is set: it starts a command only when it rises. -/
def hear (b : Board) (pending : Option Operands) : Access → Option Operands × List RomEvent
  | .write address value =>
    if address = b.base + Register.command then
      if hasBits value Control.execute then
        (none, (pending.bind (·.command? value)).toList.map .issued)
      else (some {}, [])
    else if address = b.base + Register.address then
      (pending.map fun ops => { ops with address := some value }, [])
    else if address = b.base + Register.data then
      (pending.map fun ops => { ops with data := some value }, [])
    else (pending, [])
  | .read address value =>
    (pending, if address = b.base + Register.readback then [.answered value] else [])
  | .probe _ _ => (pending, [])

def heardFrom (b : Board) : Option Operands → List Access → List RomEvent
  | _, [] => []
  | pending, cycle :: rest =>
    (b.hear pending cycle).2 ++ b.heardFrom (b.hear pending cycle).1 rest

def heard (b : Board) (cycles : List Access) : List RomEvent := b.heardFrom (some {}) cycles

/-- These cycles are heard as those events, and leave no operand pending. -/
def Hears (b : Board) (cycles : List Access) (events : List RomEvent) : Prop :=
  ∀ rest, b.heard (cycles ++ rest) = events ++ b.heard rest

variable {b : Board} {cycles cycles' : List Access} {events events' : List RomEvent}

theorem Hears.heard_eq (h : b.Hears cycles events) : b.heard cycles = events := by
  have hall := h []
  rwa [List.append_nil, show b.heard [] = [] from rfl, List.append_nil] at hall

theorem hears_nil (b : Board) : b.Hears [] [] := fun _ => rfl

theorem Hears.append (h : b.Hears cycles events) (h' : b.Hears cycles' events') :
    b.Hears (cycles ++ cycles') (events ++ events') := by
  intro rest
  rw [List.append_assoc, h, h', List.append_assoc]

theorem hears_readback (b : Board) (value : UInt32) :
    b.Hears [.read (b.base + Register.readback) value] [.answered value] := by
  intro rest
  simp [heard, heardFrom, hear]

theorem hears_poll (b : Board) (status : UInt32) :
    b.Hears [.read (b.base + Register.engineStatus) status] [] := by
  have hother : Register.engineStatus ≠ Register.readback := by decide
  intro rest
  simp [heard, heardFrom, hear, hother]

/-! ## Commands -/

section Frame

variable (pending : Option Operands) (ops : Operands) (cmd : Rom.Command)

theorem hear_control_zero :
    b.hear pending (.write (b.base + Register.command) (cmd.control 0)) = (some {}, []) := by
  simp [hear, cmd.hasBits_execute_control_zero]

theorem hear_control_execute :
    b.hear (some ops) (.write (b.base + Register.command) (cmd.control Control.execute)) =
      (none, [.issued { cmd with address := ops.address, data := ops.data }]) := by
  have hreboot : hasBits (cmd.control Control.execute) Control.reboot = false :=
    Control.IsCommandWord.hasBits_reboot ⟨cmd, .inr rfl⟩
  have hcommand : ops.command? (cmd.control Control.execute) =
      some { cmd with address := ops.address, data := ops.data } := by
    rw [Operands.command?, hreboot, if_neg Bool.false_ne_true, cmd.opcodeField_control,
      Rom.Opcode.ofByte?_byte, cmd.hasBits_endOfCommand_control]
    rfl
  simp [hear, cmd.hasBits_execute_control, hcommand]

theorem hear_address (value : UInt32) :
    b.hear (some ops) (.write (b.base + Register.address) value) =
      (some { ops with address := some value }, []) := by
  have hother : Register.address ≠ Register.command := by decide
  simp [hear, hother]

theorem hear_data (value : UInt32) :
    b.hear (some ops) (.write (b.base + Register.data) value) =
      (some { ops with data := some value }, []) := by
  have hother : Register.data ≠ Register.command := by decide
  have hother' : Register.data ≠ Register.address := by decide
  simp [hear, hother, hother']

/-- A frame is heard as its command, whatever its operands are. -/
theorem hears_frameCycles : b.Hears (b.frameCycles cmd) [.issued cmd] := by
  intro rest
  rcases cmd with ⟨opcode, address, data, closing⟩
  cases address <;> cases data <;>
    simp [heard, heardFrom, frameCycles, Rom.Command.frame, hear_control_zero,
      hear_control_execute, hear_address, hear_data]

end Frame

/-! ## What the operations of a board are heard as -/

theorem hears_readyPolls (h : cycles ∈ b.readyPolls) : b.Hears cycles [] := by
  have hpoll {ready : Bool} {t : List Access} (ht : t ∈ b.poll ready) : b.Hears t [] := by
    rcases ht with ⟨status, -, rfl⟩
    exact b.hears_poll status
  have hpolls {polls : List (List Access)} (hpolls : ∀ t ∈ polls, t ∈ b.poll false) :
      b.Hears polls.flatten [] := by
    induction polls with
    | nil => exact b.hears_nil
    | cons t rest ih =>
        rcases List.forall_mem_cons.mp hpolls with ⟨ht, hrest⟩
        exact (hpoll ht).append (ih hrest)
  rcases Language.mem_mul.mp h with ⟨waits, hwaits, last, hlast, rfl⟩
  rcases Language.mem_kstar.mp hwaits with ⟨polls, rfl, hall⟩
  exact (hpolls hall).append (hpoll hlast)

theorem hears_commanded {cmd : Rom.Command} (h : cycles ∈ b.commanded cmd) :
    b.Hears cycles [.issued cmd] := by
  rcases Language.mem_mul.mp h with ⟨polls, hpolls, frame, rfl, rfl⟩
  exact (hears_readyPolls hpolls).append (b.hears_frameCycles cmd)

theorem hears_answered {cmd : Rom.Command} {value : UInt32} (h : cycles ∈ b.answered cmd value) :
    b.Hears cycles [.issued cmd, .answered value] := by
  rcases Language.mem_mul.mp h with ⟨issued, hissued, rest, hrest, rfl⟩
  rcases Language.mem_mul.mp hrest with ⟨polls, hpolls, readback, rfl, rfl⟩
  exact (hears_commanded hissued).append
    ((hears_readyPolls hpolls).append (b.hears_readback value))

end Board

/-! ## What is heard of a session -/

/-- Of a part of a session with this board and within these budgets, if it succeeds, one of these
event lists is heard, and it counts this. Which lists they are may depend on its value. -/
def RomJob.IsHeard {α : Type} (b : Board) (budgets : Budgets) (work : RomJob α)
    (events : α → Language RomEvent) (counts : RomCounts → RomCounts) : Prop :=
  ∀ ⦃s s' cycles a⦄, s.board = b → s.budgets = budgets → work.Ends s cycles (.ok a) s' →
    (∃ t ∈ events a, b.Hears cycles t) ∧ s' = { s with counts := counts s.counts }

namespace RomJob.IsHeard

variable {α β : Type} {b : Board} {budgets : Budgets} {work : RomJob α} {next : α → RomJob β}
  {events : α → Language RomEvent} {events' : β → Language RomEvent}
  {counts counts' total : RomCounts → RomCounts}

theorem pure {a : α} (ha : [] ∈ events a) :
    RomJob.IsHeard b budgets (Pure.pure a) events id := by
  intro s s' cycles a' _ _ h
  rcases Routine.ends_pure.mp h with ⟨rfl, hvalue, rfl⟩
  cases hvalue
  exact ⟨⟨[], ha, b.hears_nil⟩, rfl⟩

theorem fail (e : RomError) :
    RomJob.IsHeard b budgets (Routine.fail e : RomJob α) events counts := by
  intro s s' cycles a _ _ h
  rcases Routine.ends_fail.mp h with ⟨-, habsurd, -⟩
  cases habsurd

theorem count (f : RomCounts → RomCounts) :
    RomJob.IsHeard b budgets (RomSession.count f) (fun _ => 1) f := by
  intro s s' cycles a _ _ h
  rcases Routine.ends_modify.mp h with ⟨rfl, -, rfl⟩
  exact ⟨⟨[], rfl, b.hears_nil⟩, rfl⟩

/-- Of two parts one is heard behind the other, and their counts add up. The second part only
matters for values that the first one can have. -/
theorem bind {later : α → β → Language RomEvent}
    (hwork : RomJob.IsHeard b budgets work events counts)
    (hnext : ∀ a, ∀ t ∈ events a, RomJob.IsHeard b budgets (next a) (later a) counts')
    (hevents : ∀ a c, ∀ t ∈ events a, ∀ t' ∈ later a c, t ++ t' ∈ events' c)
    (hcounts : ∀ c, counts' (counts c) = total c) :
    RomJob.IsHeard b budgets (work >>= next) events' total := by
  intro s s' cycles c hb hbudgets h
  rcases Routine.ends_bind_ok.mp h with ⟨before, a, s₁, after, rfl, hfirst, hsecond⟩
  rcases hwork hb hbudgets hfirst with ⟨⟨t, ht, hhears⟩, rfl⟩
  -- Counting has not changed what the second part goes by.
  rcases hnext a t ht (s := { s with counts := counts s.counts }) hb hbudgets hsecond with
    ⟨⟨t', ht', hhears'⟩, rfl⟩
  rw [← hcounts]
  exact ⟨⟨t ++ t', hevents a c t ht t' ht', hhears.append hhears'⟩, rfl⟩

theorem bind_mul {l m : Language RomEvent}
    (hwork : RomJob.IsHeard b budgets work (fun _ => l) counts)
    (hnext : ∀ a, RomJob.IsHeard b budgets (next a) (fun _ => m) counts')
    (hcounts : ∀ c, counts' (counts c) = total c) :
    RomJob.IsHeard b budgets (work >>= next) (fun _ => l * m) total :=
  hwork.bind (fun a _ _ => hnext a) (fun _ _ _ ht _ ht' => Language.append_mem_mul ht ht') hcounts

theorem quiet_bind (hwork : RomJob.IsHeard b budgets work (fun _ => 1) counts)
    (hnext : ∀ a, RomJob.IsHeard b budgets (next a) events' counts')
    (hcounts : ∀ c, counts' (counts c) = total c) :
    RomJob.IsHeard b budgets (work >>= next) events' total := by
  apply hwork.bind (fun a _ _ => hnext a) _ hcounts
  rintro - c t rfl t' ht'
  exact ht'

theorem bind_quiet {l : Language RomEvent}
    (hwork : RomJob.IsHeard b budgets work (fun _ => l) counts)
    (hnext : ∀ a, RomJob.IsHeard b budgets (next a) (fun _ => 1) counts')
    (hcounts : ∀ c, counts' (counts c) = total c) :
    RomJob.IsHeard b budgets (work >>= next) (fun _ => l) total := by
  apply hwork.bind (fun a _ _ => hnext a) _ hcounts
  rintro - - t ht t' rfl
  rwa [List.append_nil]

theorem count_bind {f : RomCounts → RomCounts} {next : Unit → RomJob β}
    (hnext : RomJob.IsHeard b budgets (next ()) events' counts)
    (hcounts : ∀ c, counts (f c) = total c) :
    RomJob.IsHeard b budgets (RomSession.count f >>= next) events' total :=
  quiet_bind (.count f) (fun _ => hnext) hcounts

theorem get_bind {next : RomSession → RomJob β}
    (hnext : ∀ s : RomSession, s.board = b → s.budgets = budgets →
      RomJob.IsHeard b budgets (next s) events' counts) :
    RomJob.IsHeard b budgets (Routine.get >>= next) events' counts :=
  fun s _ _ _ hb hbudgets h => hnext s hb hbudgets hb hbudgets (Routine.ends_get_bind.mp h)

theorem lift_bind {d : Exchange Unit} (hd : d.IsSilent) {next : Unit → RomJob β}
    (hnext : RomJob.IsHeard b budgets (next ()) events' counts) :
    RomJob.IsHeard b budgets ((Routine.lift d : RomJob Unit) >>= next) events' counts :=
  fun _ _ _ _ hb hbudgets h => hnext hb hbudgets (Routine.ends_lift_bind hd h)

theorem congr (hwork : RomJob.IsHeard b budgets work events counts)
    (hcounts : ∀ c, counts c = total c) : RomJob.IsHeard b budgets work events total := by
  have hsame : counts = total := funext hcounts
  rwa [← hsame]

end RomJob.IsHeard

/-! ## The latch and the end of a write -/

namespace Rom

/-- The write-enable latch is set, and the status that is read next shows it. -/
def latchConfirmed : Language RomEvent :=
  {t | ∃ status, hasBits status RomStatus.writeEnabled = true ∧
    t = [.issued { opcode := .writeEnable }, .issued { opcode := .readStatus }, .answered status]}

def statusReads (statuses : List UInt32) : List RomEvent :=
  statuses.flatMap fun status => [.issued { opcode := .readStatus }, .answered status]

/-- The status is read at most `tries` times. The last time and only the last time it shows no write
in progress. -/
def commitAwaited (tries : Nat) : Language RomEvent :=
  {t | ∃ busy last, busy.length < tries ∧
    (∀ status ∈ busy, hasBits status RomStatus.writing = true) ∧
    hasBits last RomStatus.writing = false ∧ t = statusReads (busy ++ [last])}

end Rom

namespace Board

variable {σ : Type} {b : Board} {s s' : σ} {cycles : List Access}

/-- A wait for the end of a write is heard as status reads, which its budget bounds. -/
theorem ends_awaitWrite_heard (hb : b.Fits) {onTick : Exchange Unit} (hticks : onTick.IsSilent)
    {readyTries interval tries left polls : Nat}
    (h : (b.awaitWrite readyTries interval onTick tries left : Job σ RomError Nat).Ends s cycles
      (.ok polls) s') :
    (∃ t ∈ Rom.commitAwaited left, b.Hears cycles t) ∧ s' = s := by
  induction left generalizing s cycles with
  | zero =>
      rcases Routine.ends_fail.mp h with ⟨-, habsurd, -⟩
      cases habsurd
  | succ left ih =>
      rcases Routine.ends_bind_ok.mp h with ⟨before, status, s₁, after, rfl, hstatus, hrest⟩
      rcases ends_readStatus hb hstatus with ⟨hmem, rfl⟩
      have hread := hears_answered hmem
      split at hrest
      next hbits =>
        have hagain := Job.ends_pause_bind (Routine.ends_lift_bind hticks hrest)
        rcases ih hagain with ⟨⟨t, ⟨busy, last, hlength, hbusy, hover, rfl⟩, hmore⟩, rfl⟩
        refine ⟨⟨_, ⟨status :: busy, last, ?_, ?_, hover, rfl⟩, hread.append hmore⟩, rfl⟩
        · exact Nat.succ_lt_succ hlength
        · exact List.forall_mem_cons.mpr ⟨hbits, hbusy⟩
      next hbits =>
        have hpure := Job.ends_remark_bind hrest
        rcases Routine.ends_pure.mp hpure with ⟨rfl, -, rfl⟩
        rw [List.append_nil]
        refine ⟨⟨_, ⟨[], status, Nat.succ_pos left, ?_, ?_, rfl⟩, hread⟩, rfl⟩
        · exact fun _ hmem => absurd hmem List.not_mem_nil
        · exact Bool.eq_false_of_not_eq_true hbits

end Board

namespace RomSession

open RomJob (IsHeard)

variable {b : Board} {budgets : Budgets} (hb : b.Fits)
include hb

theorem isHeard_waitReady : IsHeard b budgets waitReady (fun _ => 1) id := by
  intro s s' cycles a hs _ h
  rcases ends_waitReady hb hs h with ⟨hpolls, rfl⟩
  exact ⟨⟨[], rfl, Board.hears_readyPolls hpolls⟩, rfl⟩

theorem isHeard_issue {cmd : Rom.Command} (hcmd : cmd.IsAddressable) :
    IsHeard b budgets (b.issue cmd) (fun _ => {[.issued cmd]}) id := by
  intro s s' cycles a _ _ h
  rcases Board.ends_issue hb hcmd h with ⟨rfl, rfl⟩
  exact ⟨⟨_, rfl, b.hears_frameCycles cmd⟩, rfl⟩

theorem isHeard_command {cmd : Rom.Command} (hcmd : cmd.IsAddressable) :
    IsHeard b budgets (command cmd) (fun _ => {[.issued cmd]}) fun c =>
      { c with endOfCommands := c.endOfCommands + cmd.endOfCommand.toNat } := by
  have hcount : IsHeard b budgets
      (if cmd.endOfCommand then count fun c => { c with endOfCommands := c.endOfCommands + 1 }
      else pure ())
      (fun _ => 1)
      fun c => { c with endOfCommands := c.endOfCommands + cmd.endOfCommand.toNat } := by
    split
    next hclosing =>
      rw [hclosing]
      exact .count _
    next hopen =>
      rw [Bool.eq_false_of_not_eq_true hopen]
      exact .pure rfl
  have hsend (s : RomSession) (hs : s.board = b) :
      IsHeard b budgets
        (s.board.issue cmd >>= fun _ =>
          if cmd.endOfCommand then count fun c => { c with endOfCommands := c.endOfCommands + 1 }
          else pure ())
        (fun _ => {[.issued cmd]})
        fun c => { c with endOfCommands := c.endOfCommands + cmd.endOfCommand.toNat } := by
    rw [hs]
    exact .bind_quiet (isHeard_issue hb hcmd) (fun _ => hcount) fun _ => rfl
  exact .quiet_bind (isHeard_waitReady hb) (fun _ => .get_bind fun s hs _ => hsend s hs)
    fun _ => rfl

theorem isHeard_readStatus :
    IsHeard b budgets readStatus
      (fun status => {[.issued { opcode := .readStatus }, .answered status]}) id := by
  refine .get_bind fun s hs _ => ?_
  rw [hs]
  intro t t' cycles status _ _ h
  rcases Board.ends_readStatus hb h with ⟨hmem, rfl⟩
  exact ⟨⟨_, rfl, Board.hears_answered hmem⟩, rfl⟩

theorem isHeard_awaitWrite {onTick : Exchange Unit} (hticks : onTick.IsSilent) (tries : Nat) :
    IsHeard b budgets (awaitWrite tries onTick) (fun _ => Rom.commitAwaited tries) id := by
  refine .get_bind fun s hs _ => ?_
  rw [hs]
  intro t t' cycles polls _ _ h
  exact Board.ends_awaitWrite_heard hb hticks h

/-- The latch is set for nothing but a status that shows it. -/
theorem isHeard_enableWrites :
    IsHeard b budgets enableWrites (fun _ => Rom.latchConfirmed) fun c =>
      { c with writeEnables := c.writeEnables + 1 } := by
  have hcmd : Rom.Command.IsAddressable { opcode := .writeEnable } := by
    simp [Rom.Command.IsAddressable]
  have hcheck (status : UInt32) :
      IsHeard b budgets
        (if !hasBits status RomStatus.writeEnabled then Routine.fail (.writeEnableFailed status)
        else pure () : RomJob Unit)
        (fun _ => {t | hasBits status RomStatus.writeEnabled = true ∧ t = []}) id := by
    cases hbits : hasBits status RomStatus.writeEnabled with
    | true => exact .pure ⟨rfl, rfl⟩
    | false => exact .fail _
  have hread : IsHeard b budgets
      (readStatus >>= fun status =>
        if !hasBits status RomStatus.writeEnabled then Routine.fail (.writeEnableFailed status)
        else pure () : RomJob Unit)
      (fun _ => {t | ∃ status, hasBits status RomStatus.writeEnabled = true ∧
        t = [.issued { opcode := .readStatus }, .answered status]}) id := by
    refine .bind (isHeard_readStatus hb) (fun status _ _ => hcheck status) ?_ fun _ => rfl
    rintro status - t rfl t' ⟨hbits, rfl⟩
    exact ⟨status, hbits, rfl⟩
  refine .bind (isHeard_command hb hcmd) (fun _ _ _ => .count_bind hread fun _ => rfl) ?_
    fun _ => rfl
  rintro - - t rfl t' ⟨status, hbits, rfl⟩
  exact ⟨status, hbits, rfl⟩

end RomSession
end Reflash
