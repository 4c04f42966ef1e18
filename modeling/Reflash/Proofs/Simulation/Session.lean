import Reflash.Proofs.Simulation.Outline
/-!
# Sessions with a simulated board

What the parts of a session come to on a board, up to outlines. A command on a board whose engine
is ready leaves the board with the command carried out, and what is left of the board's old
registers does not show. A wait ends well exactly if its budget is larger than what is left to wait
for.
-/

namespace Reflash

namespace Rom.Command

def IsComplete (cmd : Command) : Prop :=
  (cmd.opcode = .pageProgram ∨ cmd.opcode = .autoRead → cmd.address.isSome) ∧
    (cmd.opcode = .pageProgram → cmd.data.isSome)

instance (cmd : Command) : Decidable cmd.IsComplete := inferInstanceAs (Decidable (_ ∧ _))

def Reports (cmd : Command) : Prop :=
  cmd.opcode = .readStatus ∨ cmd.opcode = .autoRead ∨ cmd.opcode = .readId

end Rom.Command

namespace SimulatedBoard

variable {b b' : SimulatedBoard} {cmd : Rom.Command}

private theorem outline_carryOut (b : SimulatedBoard) (hcmd : cmd.IsComplete) :
    Alike ((Outlined.outline b : SimulatedBoard).carryOut cmd) (b.carryOut cmd) := by
  rcases cmd with ⟨opcode, address, data, closing⟩
  rcases hcmd with ⟨haddress, hdata⟩
  unfold carryOut runCommand Alike
  rw [Rom.Opcode.ofByte?_byte]
  cases opcode with
  | writeDisable | writeEnable | readId => rfl
  -- What these two go by is in the outline.
  | readStatus =>
      simp only [execute, reportStatus, Outlined.outline]
      split <;> rfl
  | bulkErase =>
      simp only [execute, bulkErase, Outlined.outline]
      split <;> rfl
  -- The operands are not, but the command brings them along.
  | autoRead =>
      obtain ⟨index, rfl⟩ := Option.isSome_iff_exists.mp (haddress (.inr rfl))
      rfl
  | pageProgram =>
      obtain ⟨index, rfl⟩ := Option.isSome_iff_exists.mp (haddress (.inl rfl))
      obtain ⟨word, rfl⟩ := Option.isSome_iff_exists.mp (hdata rfl)
      simp only [execute, pageProgram, wordIndex, commitPage, Outlined.outline]
      cases b.page with
      | none => cases b.writeEnabled && b.busy == 0 <;> cases closing <;> rfl
      | some page => cases closing <;> rfl

private theorem readback_outline_carryOut (b : SimulatedBoard) (hcmd : cmd.IsComplete)
    (hreports : cmd.Reports) :
    ((Outlined.outline b : SimulatedBoard).carryOut cmd).readback = (b.carryOut cmd).readback := by
  rcases cmd with ⟨opcode, address, data, closing⟩
  unfold carryOut runCommand
  rw [Rom.Opcode.ofByte?_byte]
  rcases hreports with rfl | rfl | rfl
  · simp only [execute, reportStatus, Outlined.outline]
    split <;> rfl
  · obtain ⟨index, rfl⟩ := Option.isSome_iff_exists.mp (hcmd.1 (.inr rfl))
    rfl
  · rfl

theorem alike_carryOut (hcmd : cmd.IsComplete) (h : Alike b b') :
    Alike (b.carryOut cmd) (b'.carryOut cmd) :=
  h.map (carryOut · cmd) fun b => outline_carryOut b hcmd

/-- What a command leaves to be read does not depend on what was left before. -/
theorem readback_carryOut (hcmd : cmd.IsComplete) (hreports : cmd.Reports) (h : Alike b b') :
    (b.carryOut cmd).readback = (b'.carryOut cmd).readback := by
  have houtline := readback_outline_carryOut b hcmd hreports
  rw [h.outline_eq] at houtline
  exact houtline.symm.trans (readback_outline_carryOut b' hcmd hreports)

theorem notReady_carryOut (b : SimulatedBoard) (cmd : Rom.Command) :
    (b.carryOut cmd).notReady = b.notReady := by
  unfold carryOut runCommand
  rw [Rom.Opcode.ofByte?_byte]
  cases cmd.opcode with
  | writeDisable | writeEnable | readId | autoRead => rfl
  | readStatus =>
      simp only [execute, reportStatus]
      split <;> rfl
  | bulkErase =>
      simp only [execute, bulkErase]
      split <;> rfl
  | pageProgram =>
      simp only [execute, pageProgram, commitPage]
      split <;> split <;> rfl

theorem alike_responds (h : Alike b b') : b.Responds ↔ b'.Responds := by
  have hfaults : b.faults = b'.faults := (congrArg SimulatedBoard.faults h.outline_eq :)
  have hhung : b.hung = b'.hung := (congrArg SimulatedBoard.hung h.outline_eq :)
  rw [Responds, Responds, hfaults, hhung]

theorem alike_answersWithin (h : Alike b b') {tries : Nat} :
    b.AnswersWithin tries ↔ b'.AnswersWithin tries := by
  have hnotReady : b.notReady = b'.notReady := (congrArg SimulatedBoard.notReady h.outline_eq :)
  rw [AnswersWithin, AnswersWithin, alike_responds h, hnotReady]

theorem alike_polled (h : Alike b b') (polls : Nat) :
    Alike (b.polled polls) (b'.polled polls) := by
  refine h.map (polled · polls) fun b => ?_
  unfold polled
  by_cases hresponds : b.Responds
  · have hresponds' : (Outlined.outline b : SimulatedBoard).Responds := hresponds
    rw [if_pos hresponds, if_pos hresponds']
    rfl
  · have hresponds' : ¬(Outlined.outline b : SimulatedBoard).Responds := hresponds
    rw [if_neg hresponds, if_neg hresponds']
    rfl

/-- The command engine takes a command at once. -/
def Idle (b : SimulatedBoard) : Prop := b.Responds ∧ b.notReady = 0

theorem Idle.answersWithin (h : b.Idle) {tries : Nat} (htries : 0 < tries) :
    b.AnswersWithin tries :=
  ⟨h.1, h.2 ▸ htries⟩

def settled (b : SimulatedBoard) : SimulatedBoard := { b with notReady := 0 }

theorem Idle.settled_eq (h : b.Idle) : b.settled = b := by
  unfold settled
  rw [← h.2]

theorem alike_polled_settled {tries : Nat} (h : b.AnswersWithin tries) :
    Alike (b.polled (b.notReady + 1)) b.settled := by
  have hcount : b.notReady - (b.notReady + 1) = 0 := by omega
  unfold polled settled
  rw [if_pos h.1, hcount]
  rfl

theorem Idle.alike_polled (h : b.Idle) : Alike (b.polled (b.notReady + 1)) b := by
  have hsettled := alike_polled_settled (h.answersWithin Nat.one_pos)
  rwa [h.settled_eq] at hsettled

theorem alike_idle (h : Alike b b') : b.Idle ↔ b'.Idle := by
  have hnotReady : b.notReady = b'.notReady := (congrArg SimulatedBoard.notReady h.outline_eq :)
  rw [Idle, Idle, alike_responds h, hnotReady]

/-- A command does not keep a board from taking the next one, unless it makes the engine hang. -/
theorem Idle.carryOut (h : b.Idle) (hresponds : (b.carryOut cmd).Responds) :
    (b.carryOut cmd).Idle :=
  ⟨hresponds, (notReady_carryOut b cmd).trans h.2⟩

theorem alike_issued {x : SimulatedBoard} (hcmd : cmd.IsComplete) (h : b.Idle) (hx : Alike x b) :
    Alike ((x.polled (x.notReady + 1)).issued cmd) (b.carryOut cmd) := by
  have hready : Alike (x.polled (x.notReady + 1)) b :=
    ((alike_idle hx).mpr h).alike_polled.trans hx
  exact alike_carryOut hcmd hready

theorem readback_issued {x : SimulatedBoard} (hcmd : cmd.IsComplete) (hreports : cmd.Reports)
    (h : b.Idle) (hx : Alike x b) :
    ((x.polled (x.notReady + 1)).issued cmd).readback = (b.carryOut cmd).readback := by
  have hready : Alike (x.polled (x.notReady + 1)) b :=
    ((alike_idle hx).mpr h).alike_polled.trans hx
  exact readback_carryOut hcmd hreports hready

end SimulatedBoard

/-! ## Jobs of a board -/

namespace Board

variable {σ : Type} [Outlined σ] {s : σ} {slot : Slot} {b : SimulatedBoard} {tries : Nat}
  {cmd : Rom.Command}

theorem yields_waitReady (h : b.AnswersWithin tries) :
    ((geographic slot).waitReady tries : Job σ RomError Nat).Yields s b (.ok (b.notReady + 1)) s
      b.settled := by
  intro t x ht hx
  have hnotReady : x.notReady = b.notReady := (congrArg SimulatedBoard.notReady hx.outline_eq :)
  rw [run_waitReady ((SimulatedBoard.alike_answersWithin hx).mpr h), hnotReady]
  refine ⟨t, _, rfl, ht, ?_⟩
  exact (SimulatedBoard.alike_polled hx _).trans (SimulatedBoard.alike_polled_settled h)

theorem yields_waitReady_timeout (h : ¬b.AnswersWithin tries) :
    ((geographic slot).waitReady tries : Job σ RomError Nat).Yields s b
      (.failed (.readyTimeout tries)) s (b.polled tries) := by
  intro t x ht hx
  have hanswers := mt (SimulatedBoard.alike_answersWithin hx).mp h
  exact ⟨t, _, run_awaitReady_timeout hanswers t, ht, SimulatedBoard.alike_polled hx _⟩

theorem yields_issue {ε : Type} (hcmd : cmd.IsComplete) :
    ((geographic slot).issue cmd : Job σ ε Unit).Yields s b (.ok ()) s (b.carryOut cmd) :=
  fun t x ht hx => ⟨t, _, run_issue cmd t x, ht, SimulatedBoard.alike_carryOut hcmd hx⟩

theorem yields_readStatus (h : b.Idle) (htries : 0 < tries)
    (hafter : (b.carryOut { opcode := .readStatus }).Responds) :
    ((geographic slot).readStatus tries : Job σ RomError UInt32).Yields s b
      (.ok (b.carryOut { opcode := .readStatus }).readback) s
      (b.carryOut { opcode := .readStatus }) := by
  intro t x ht hx
  have hidle := h.carryOut hafter
  have hcmd : ({ opcode := .readStatus } : Rom.Command).IsComplete := by decide
  have hissued := SimulatedBoard.alike_issued hcmd h hx
  have hx' := (SimulatedBoard.alike_idle hx).mpr h
  have hissued' := (SimulatedBoard.alike_idle hissued).mpr hidle
  have hreadback := SimulatedBoard.readback_issued hcmd (.inl rfl) h hx
  rw [readStatus, Routine.run_bind_ok (run_waitReady (hx'.answersWithin htries) t),
    Routine.run_bind_ok (run_issue _ t _)]
  generalize (x.polled (x.notReady + 1)).issued { opcode := .readStatus } = z at *
  rw [Routine.run_bind_ok (run_waitReady (hissued'.answersWithin htries) t), run_readback,
    ← hreadback]
  exact ⟨t, _, rfl, ht, hissued'.alike_polled.trans hissued⟩

end Board

namespace RomSession

variable {s : RomSession} {slot : Slot} {b : SimulatedBoard} {cmd : Rom.Command}

theorem yields_count (f : RomCounts → RomCounts) : (count f).Yields s b (.ok ()) s b :=
  Routine.yields_modify fun _ ht => ht

variable (hs : s.board = .geographic slot)
include hs

theorem yields_waitReady (h : b.AnswersWithin s.budgets.commandReadyTries) :
    waitReady.Yields s b (.ok ()) s b.settled := by
  refine Routine.yields_get_bind fun t ht => ?_
  obtain ⟨hboard, hbudgets, -⟩ := alike_iff.mp ht
  rw [hboard, hbudgets, hs]
  exact (Board.yields_waitReady h).bind (Routine.yields_pure ())

theorem yields_waitReady_timeout (h : ¬b.AnswersWithin s.budgets.commandReadyTries) :
    waitReady.Yields s b (.failed (.readyTimeout s.budgets.commandReadyTries)) s
      (b.polled s.budgets.commandReadyTries) := by
  refine Routine.yields_get_bind fun t ht => ?_
  obtain ⟨hboard, hbudgets, -⟩ := alike_iff.mp ht
  rw [hboard, hbudgets, hs]
  exact (Board.yields_waitReady_timeout h).bind_failed

theorem yields_awaitEngine (h : b.AnswersWithin s.budgets.readyTries) :
    awaitEngine.Yields s b (.ok ()) s b.settled := by
  refine Routine.yields_get_bind fun t ht => ?_
  obtain ⟨hboard, hbudgets, -⟩ := alike_iff.mp ht
  rw [hboard, hbudgets, hs]
  exact (Board.yields_waitReady h).bind (Routine.yields_pure ())

theorem yields_awaitEngine_timeout (h : ¬b.AnswersWithin s.budgets.readyTries) :
    awaitEngine.Yields s b (.failed (.readyTimeout s.budgets.readyTries)) s
      (b.polled s.budgets.readyTries) := by
  refine Routine.yields_get_bind fun t ht => ?_
  obtain ⟨hboard, hbudgets, -⟩ := alike_iff.mp ht
  rw [hboard, hbudgets, hs]
  exact (Board.yields_waitReady_timeout h).bind_failed

theorem yields_command_settled (hcmd : cmd.IsComplete)
    (h : b.AnswersWithin s.budgets.commandReadyTries) :
    (command cmd).Yields s b (.ok ()) s (b.settled.carryOut cmd) := by
  refine (yields_waitReady hs h).bind (Routine.yields_get_bind fun t ht => ?_)
  rw [(alike_iff.mp ht).1, hs]
  refine (Board.yields_issue hcmd).bind ?_
  split
  · exact yields_count _
  · exact Routine.yields_pure ()

theorem yields_command (hcmd : cmd.IsComplete) (h : b.Idle)
    (htries : 0 < s.budgets.commandReadyTries) :
    (command cmd).Yields s b (.ok ()) s (b.carryOut cmd) := by
  have hcommand := yields_command_settled hs hcmd (h.answersWithin htries)
  rwa [h.settled_eq] at hcommand

theorem yields_command_timeout (h : ¬b.AnswersWithin s.budgets.commandReadyTries) :
    (command cmd).Yields s b (.failed (.readyTimeout s.budgets.commandReadyTries)) s
      (b.polled s.budgets.commandReadyTries) :=
  (yields_waitReady_timeout hs h).bind_failed

theorem yields_query (hcmd : cmd.IsComplete) (hreports : cmd.Reports) (h : b.Idle)
    (htries : 0 < s.budgets.commandReadyTries) (hafter : (b.carryOut cmd).Responds) :
    (query cmd).Yields s b (.ok (b.carryOut cmd).readback) s (b.carryOut cmd) := by
  intro t x ht hx
  obtain ⟨hboard, hbudgets, -⟩ := alike_iff.mp ht
  have hidle := h.carryOut hafter
  have hissued := SimulatedBoard.alike_issued hcmd h hx
  have hx' := (SimulatedBoard.alike_idle hx).mpr h
  have hissued' := (SimulatedBoard.alike_idle hissued).mpr hidle
  have hreadback := SimulatedBoard.readback_issued hcmd hreports h hx
  rw [← hbudgets] at htries
  obtain ⟨counts, hrun⟩ := run_command (hboard.trans hs) cmd (hx'.answersWithin htries)
  rw [query, Routine.run_bind_ok hrun]
  -- Of the board that the command leaves only `hissued` and `hreadback` are needed.
  generalize (x.polled (x.notReady + 1)).issued cmd = z at *
  have ht' : ({ t with counts } : RomSession).board = .geographic slot := hboard.trans hs
  have hread : ∀ y : SimulatedBoard,
      ((t.board.readback : RomJob UInt32) { t with counts }).run Bus.handler y =
        ((.ok y.readback, { t with counts }),
          { y with activity.reads := y.activity.reads + 1 }) := by
    rw [hboard, hs]
    exact Board.run_readback _
  rw [Routine.run_bind_ok (run_waitReady ht' (hissued'.answersWithin htries)),
    Routine.run_get_bind, hread, ← hreadback]
  exact ⟨{ t with counts }, _, rfl, ht, hissued'.alike_polled.trans hissued⟩

/-- A command behind which the engine does not answer any more has been carried out, but what it
leaves cannot be read. -/
theorem fails_query (hcmd : cmd.IsComplete) (h : b.Idle)
    (htries : 0 < s.budgets.commandReadyTries) (hafter : ¬(b.carryOut cmd).Responds) :
    (query cmd).Fails s b (.readyTimeout s.budgets.commandReadyTries) := by
  have hwait := yields_waitReady_timeout (b := b.carryOut cmd) hs fun hanswers => hafter hanswers.1
  exact (yields_command hs hcmd h htries).bind_fails (Routine.Fails.bind ⟨s, _, hwait⟩)

theorem yields_readId (h : b.Idle) (htries : 0 < s.budgets.commandReadyTries) :
    readId.Yields s b (.ok SimulatedBoard.romId) s b := by
  have hafter : (b.carryOut { opcode := .readId }).Responds := h.1
  exact (yields_query hs (by decide) (.inr (.inr rfl)) h htries hafter).trans (.refl s) rfl

theorem yields_readId_unready (htries : s.budgets.commandReadyTries = 0) :
    readId.Yields s b (.failed (.readyTimeout s.budgets.commandReadyTries)) s
      (b.polled s.budgets.commandReadyTries) := by
  refine (yields_command_timeout hs fun hanswers => ?_).bind_failed
  exact Nat.not_lt_zero _ (htries ▸ hanswers.2)

end RomSession
end Reflash
