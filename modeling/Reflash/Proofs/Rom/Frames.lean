import Reflash.Proofs.Rom.Cycles
import Reflash.Proofs.Traces
import Reflash.Rom.Reading
/-!
# Frames of ROM commands

Of a look at a ROM only register writes show. They come in whole frames, one for each command, and
each command is one that the look takes: no run ends in the middle of a frame, whatever the bus
answers and wherever the run fails.
-/

namespace Reflash

open scoped Computability

def Access.isWrite : Access → Bool
  | write _ _ => true
  | read _ _ | probe _ _ => false

def writeIn? (turn : Turn engine) : Option Access :=
  (Access.of? turn.1 turn.2).filter Access.isWrite

theorem filterMap_writeIn? (turns : List (Turn engine)) :
    turns.filterMap writeIn? = (cyclesOf turns).filter Access.isWrite :=
  List.filter_filterMap.symm

theorem writeIn?_of_isLook {r : Request} (answer : r.Answer) (h : r.IsLook) :
    writeIn? ⟨r, answer⟩ = none := by
  cases r with
  | write => exact h.elim
  | read | probe | pause | tick | remark | report => rfl

def Board.frames (b : Board) (commands : Set Rom.Command) : Language Access :=
  b.frameCycles '' commands

theorem Board.filter_frameCycles (b : Board) (cmd : Rom.Command) :
    (b.frameCycles cmd).filter Access.isWrite = b.frameCycles cmd := by
  refine List.filter_eq_self.mpr fun cycle hcycle => ?_
  obtain ⟨w, -, rfl⟩ := List.mem_map.mp hcycle
  rfl

theorem Routine.Traces.of_looks {σ ε α : Type} {r : Job σ ε α} {holds : σ → Prop}
    {l : Language Access} (h : r.Keeps Request.IsLook holds) :
    r.Traces writeIn? l∗ holds fun _ => holds :=
  .of_keeps h (fun _ answer => writeIn?_of_isLook answer) (Language.nil_mem_kstar l)

def Rom.wordReads : Set Rom.Command :=
  {cmd | ∃ address lastOfPage, cmd = Board.readCommand address lastOfPage}

def Rom.idReads : Set Rom.Command := {{ opcode := .readId }}

/-- A part of a session that, at a board on the bus, writes to that board only, and nothing but
whole frames of some commands. -/
def RomJob.Sends {α : Type} (commands : Set Rom.Command) (work : RomJob α) : Prop :=
  ∀ b : Board, b.Fits →
    work.Traces writeIn? (b.frames commands)∗ (fun s => s.board = b) fun _ s => s.board = b

/-! ## Commands -/

section Commands

variable {commands : Set Rom.Command} {cmd : Rom.Command} (hcmd : cmd ∈ commands)
include hcmd

theorem Board.traces_issue {σ ε : Type} {b : Board} (hb : b.Fits) {holds : σ → Prop} :
    (b.issue cmd : Job σ ε Unit).Traces writeIn? (b.frames commands)∗ holds fun _ => holds := by
  rintro s hs turns ⟨out, s'⟩ hplays
  have hoffsets : ∀ w ∈ cmd.frame, w.1 ≤ Register.engineStatus := fun w hw =>
    cmd.offset_le_of_mem_frame hw
  obtain ⟨hcycles, -, rfl⟩ :=
    Board.ends_writeAll hb hoffsets (Job.ends_remark_bind ⟨turns, hplays, rfl⟩)
  refine ⟨?_, fun _ _ => hs⟩
  rw [filterMap_writeIn?, hcycles]
  refine Set.mem_of_mem_of_subset ?_ (le_kstar (a := b.frames commands))
  exact ⟨cmd, hcmd, (b.filter_frameCycles cmd).symm⟩

namespace RomSession

theorem sends_command : RomJob.Sends commands (command cmd) := by
  intro b hb
  refine .bind (.of_looks (keeps_waitReady (knows_board b) hb trivial)) fun _ => ?_
  refine .get_bind fun s hs => ?_
  rw [hs]
  refine .bind (Board.traces_issue hcmd hb) fun _ => .of_looks ?_
  exact .ite (keeps_count (knows_board b) _) (.pure ())

theorem sends_query : RomJob.Sends commands (query cmd) := by
  intro b hb
  refine .bind (sends_command hcmd b hb) fun _ => ?_
  refine .bind (.of_looks (keeps_waitReady (knows_board b) hb trivial)) fun _ => ?_
  refine .get_bind fun s hs => ?_
  rw [hs]
  exact .of_looks (Board.keeps_readback hb trivial)

end RomSession
end Commands

/-! ## Looks at a ROM -/

namespace RomSession

theorem sends_readId : RomJob.Sends Rom.idReads readId := sends_query rfl

theorem sends_readWord (address : UInt32) (lastOfPage : Bool) :
    RomJob.Sends Rom.wordReads (readWord address lastOfPage) := by
  intro b hb
  have hcmd : Board.readCommand address lastOfPage ∈ Rom.wordReads := ⟨address, lastOfPage, rfl⟩
  refine .bind (sends_query hcmd b hb) fun word => ?_
  exact .of_looks (.bind (keeps_count (knows_board b) _) fun _ => .pure word)

variable {onTick : Exchange Unit} (hticks : onTick.IsSilent)
include hticks

theorem sends_readWordsFrom (index : Nat) (sofar : List UInt32) (count : Nat) :
    RomJob.Sends Rom.wordReads (readWordsFrom onTick index sofar count) := by
  intro b hb
  have htick : (Routine.lift onTick : RomJob Unit).Keeps Request.IsLook fun s => s.board = b :=
    .lift (hticks.mono (fun _ => Request.IsSilent.isLook) fun _ _ => trivial)
  induction count generalizing index sofar with
  | zero => exact .of_looks (.pure _)
  | succ count ih =>
      refine .bind (sends_readWord _ _ b hb) fun word => ?_
      exact .bind (.of_looks htick) fun _ => ih (index + 1) (word :: sofar)

theorem traces_download {b : Board} (hb : b.Fits) (sizeBytes : Nat) :
    (download sizeBytes onTick).Traces writeIn? (b.frames Rom.wordReads)∗
      (fun p => p.1.board = b) fun _ p => p.1.board = b := by
  have hwords : ((readWords (sizeBytes / Rom.wordBytes) onTick).within Prod.fst
      fun p s => (s, p.2) : Job (RomSession × Image) RomError _).Traces writeIn?
        (b.frames Rom.wordReads)∗ (fun p => p.1.board = b) fun _ p => p.1.board = b :=
    .within (sends_readWordsFrom hticks 0 [] _ b hb) (fun _ ht => ht) fun _ _ _ _ hs => hs
  refine .ite (.of_looks (.fail _)) (.bind (.of_looks (.modify fun _ hs => hs)) fun _ => ?_)
  exact .bind hwords fun words => .of_looks (.modify fun _ hs => hs)

end RomSession
end Reflash
