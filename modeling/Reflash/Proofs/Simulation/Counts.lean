import Reflash.Proofs.Rom.Counts
import Reflash.Proofs.Simulation.Executions
/-!
# Counts on both ends of the bus

A simulated board counts the commands that close its page buffer, and so does a session with its
ROM. What a dialogue leaves of a bus is what its cycles make of it, and of those only whole frames
count on the board. So both counts grow alike, however calls of the session end and whatever is
wrong with the board.
-/

namespace Reflash

/-! ## A bus after some cycles -/

def Access.on {σ : Type} [Bus σ] (s : σ) : Access → σ
  | .read address _ => (Bus.read s address).2
  | .write address value => Bus.write s address value
  | .probe address _ => (Bus.probe s address).2

/-- What a dialogue does to the bus, its cycles do. -/
theorem Exchange.foldl_cycles {σ α : Type} [Bus σ] (d : Exchange α) (s : σ) :
    (Exchange.cycles d s).foldl Access.on s = (d.run Bus.handler s).2 := by
  let agree : σ × List Access → Prop := fun p => p.2.foldl Access.on s = p.1
  have hstep : ∀ r p, True → agree p → agree (Bus.recorder r p).2 := by
    rintro r ⟨s', cycles⟩ - hs'
    have hs' : cycles.foldl Access.on s = s' := hs'
    -- A request that is no bus cycle is not recorded, and the bus does not see it.
    cases r with
    | read | write | probe =>
        show (cycles ++ [_]).foldl Access.on s = _
        rw [List.foldl_append, hs']
        rfl
    | pause | tick | remark | report =>
        show (cycles ++ []).foldl Access.on s = _
        rw [List.append_nil, hs']
        rfl
  have hfold : agree (d.run Bus.recorder (s, [])).2 := d.keeps_true.run_preserves agree hstep rfl
  obtain ⟨turns, -, hrun⟩ := Bus.run_recorder d s []
  rw [hrun] at hfold
  rw [Exchange.cycles, hrun]
  exact hfold

/-! ## Commands that close the page buffer -/

namespace SimulatedBoard

variable (b : SimulatedBoard)

theorem endOfCommands_execute (closing : Bool) (opcode : Rom.Opcode) :
    (b.execute closing opcode).activity.endOfCommands = b.activity.endOfCommands := by
  cases opcode with
  | writeDisable | writeEnable | autoRead | readId => rfl
  | readStatus =>
      simp only [execute, reportStatus]
      split <;> rfl
  | bulkErase =>
      simp only [execute, bulkErase]
      split <;> rfl
  | pageProgram =>
      simp only [execute, pageProgram, commitPage]
      split
      next => rfl
      next => split <;> rfl

theorem endOfCommands_issued (cmd : Rom.Command) :
    (b.issued cmd).activity.endOfCommands =
      b.activity.endOfCommands + if cmd.endOfCommand then 1 else 0 := by
  have hcarried : (b.issued cmd).activity.endOfCommands =
      (b.carryOut cmd).activity.endOfCommands := rfl
  rw [hcarried, b.carryOut_eq, endOfCommands_execute]

theorem endOfCommands_on_read (address value : UInt32) :
    (Access.on b (.read address value)).activity.endOfCommands = b.activity.endOfCommands := by
  obtain ⟨_, _, hread⟩ := b.read_frame (SimulatedCrate.offset address)
  have hon : Access.on b (.read address value) = (b.read (SimulatedCrate.offset address)).2 := rfl
  rw [hon, hread]

end SimulatedBoard

def RomEvent.isClosing : RomEvent → Bool
  | .issued cmd => cmd.endOfCommand
  | .answered _ => false

theorem Rom.countP_isClosing (ts : List Transaction) :
    (ts.flatMap Transaction.events).countP RomEvent.isClosing =
      ts.countP fun t => t.cmd.endOfCommand := by
  induction ts with
  | nil => rfl
  | cons t rest ih =>
      have hone : t.events.countP RomEvent.isClosing =
          [t].countP fun t => t.cmd.endOfCommand := by
        obtain ⟨cmd, value?⟩ := t
        cases value? <;> rfl
      rw [List.flatMap_cons, List.countP_append, hone, ih, ← List.countP_append]
      rfl

namespace Board.Carries

variable {slot : Slot} {cycles : List Access} {events : List RomEvent}

theorem foldl_frameCycles (slot : Slot) (cmd : Rom.Command) (b : SimulatedBoard) :
    ((geographic slot).frameCycles cmd).foldl Access.on b = b.issued cmd := by
  have hwrites : ∀ {writes : List (UInt32 × UInt32)} {b : SimulatedBoard},
      (∀ w ∈ writes, w.1 ≤ Register.engineStatus) →
        (writes.map fun w => Access.write ((geographic slot).base + w.1) w.2).foldl Access.on b =
          b.writeAll writes := by
    intro writes b h
    induction writes generalizing b with
    | nil => rfl
    | cons w rest ih =>
        obtain ⟨hw, hrest⟩ := List.forall_mem_cons.mp h
        have hwrite : Access.on b (.write ((geographic slot).base + w.1) w.2) =
            b.write w.1 w.2 := congrArg (b.write · w.2) (SimulatedCrate.offset_register slot hw)
        rw [List.map_cons, List.foldl_cons, hwrite, ih hrest]
        rfl
  exact (hwrites fun w hw => cmd.offset_le_of_mem_frame hw).trans (b.writeAll_frame cmd)

theorem endOfCommands_foldl (h : (geographic slot).Carries cycles events) (b : SimulatedBoard) :
    (cycles.foldl Access.on b).activity.endOfCommands =
      b.activity.endOfCommands + events.countP RomEvent.isClosing := by
  induction h generalizing b with
  | nil => rfl
  | poll status _ ih =>
      rw [List.foldl_cons, ih, b.endOfCommands_on_read]
  | command cmd _ ih =>
      rw [List.foldl_append, foldl_frameCycles, ih, b.endOfCommands_issued, List.countP_cons,
        RomEvent.isClosing]
      omega
  | answer value _ ih =>
      rw [List.foldl_cons, ih, b.endOfCommands_on_read, List.countP_cons_of_neg Bool.false_ne_true]

end Board.Carries

namespace RomSession

/-- The counts of a session with a board that fits on the bus are true, whatever calls have been
made and however they ended: of the commands on the bus they are how many closed the page buffer,
set the write-enable latch, wrote a word, did so and closed the page, and read a word the value of
which was read in turn. And while calls are made, a simulated board counts as many commands that
close its page buffer as the session does, from any state of either and whatever is wrong with the
board. -/
theorem counts_are_true :
    (∀ {σ : Type} [Bus σ] (bus : σ) (b : Board) (budgets : Budgets) (timing : Timing)
      (cs : List Call), b.Fits →
      let s : RomSession := { board := b, budgets, timing }
      let ts := Rom.transactions (b.heard (Exchange.cycles (calls cs s) bus))
      ((calls cs s).run Bus.handler bus).1.2.counts =
        { endOfCommands := ts.countP fun t => t.cmd.endOfCommand
          writeEnables := ts.countP fun t => t.cmd.opcode = .writeEnable
          wordsWritten := ts.countP fun t => t.cmd.opcode = .pageProgram
          pageWaits := ts.countP fun t => t.cmd.opcode = .pageProgram ∧ t.cmd.endOfCommand = true
          wordsRead := ts.countP fun t => t.cmd.opcode = .autoRead ∧ t.value?.isSome = true }) ∧
    ∀ (c : SimulatedCrate) (slot : Slot) (b : SimulatedBoard) (s : RomSession) (cs : List Call),
      c.board? slot = some b → s.board = .geographic slot →
      ∃ b' counted,
        ((calls cs s).run Bus.handler c).2.board? slot = some b' ∧
        b'.activity.endOfCommands = b.activity.endOfCommands + counted ∧
        ((calls cs s).run Bus.handler c).1.2.counts.endOfCommands =
          s.counts.endOfCommands + counted := by
  constructor
  · intro σ _ bus b budgets timing cs hb s ts
    obtain ⟨told, hcarries, hstate⟩ := accounts_calls hb cs rfl (Routine.ends_run (calls cs) s bus)
    have hts : ts = told := by
      rw [← Rom.transactions_events told, ← hcarries.hears.heard_eq]
    rw [hstate, hts]
    simp only [RomCounts.plus, s, Nat.zero_add]
  · intro c slot b s cs hb hs
    have hfits := slot.fits_geographic
    have howns : (calls cs s).Keeps (Board.geographic slot).Owns fun _ => True :=
      (isProper_calls cs _ hfits s hs).mono (fun _ hr => .inl (.inl hr)) fun _ _ => trivial
    obtain ⟨told, hcarries, hstate⟩ := accounts_calls hfits cs hs (Routine.ends_run (calls cs) s b)
    have hcount := hcarries.endOfCommands_foldl b
    rw [Exchange.foldl_cycles, Rom.countP_isClosing] at hcount
    rw [SimulatedCrate.run_of_owns howns hb]
    refine ⟨_, _, SimulatedCrate.board?_insert_self .., hcount, ?_⟩
    rw [hstate]
    rfl

/-- A board that stops answering after the first word that it is asked for: the latch has been set,
and the word was asked for with a command that closes the buffer, but it was never read. -/
theorem counts_are_true_hanging :
    let b : SimulatedBoard := { version := ⟨1, 2⟩, faults := { readHangs := true } }
    let c := SimulatedCrate.sole .third b
    let s : RomSession :=
      { board := .geographic .third, budgets := { commandReadyTries := 3 }, timing := .immediate }
    let cs : List Call := [.enableWrites, .readWord 8 true, .readId]
    s.board.Fits ∧ c.board? .third = some b ∧
      Rom.transactions (s.board.heard (Exchange.cycles (calls cs s) c)) =
        [⟨{ opcode := .writeEnable }, none⟩, ⟨{ opcode := .readStatus }, some 2⟩,
          ⟨{ opcode := .autoRead, address := some 8, endOfCommand := true }, none⟩] ∧
      ((calls cs s).run Bus.handler c).1.2.counts = { endOfCommands := 1, writeEnables := 1 } ∧
      ∃ b' counted,
        ((calls cs s).run Bus.handler c).2.board? .third = some b' ∧
        b'.activity.endOfCommands = 0 + counted ∧
        ((calls cs s).run Bus.handler c).1.2.counts.endOfCommands = 0 + counted := by
  intro b c s cs
  have hts : Rom.transactions (s.board.heard (Exchange.cycles (calls cs s) c)) =
      [⟨{ opcode := .writeEnable }, none⟩, ⟨{ opcode := .readStatus }, some 2⟩,
        ⟨{ opcode := .autoRead, address := some 8, endOfCommand := true }, none⟩] := by
    decide +kernel
  have hb : c.board? .third = some b := SimulatedCrate.board?_insert_self ..
  refine ⟨by decide, hb, hts, ?_, counts_are_true.2 c .third b s cs hb rfl⟩
  rw [counts_are_true.1 c s.board s.budgets s.timing cs (by decide)]
  show RomCounts.mk .. = _
  rw [hts]
  decide

end RomSession
end Reflash
