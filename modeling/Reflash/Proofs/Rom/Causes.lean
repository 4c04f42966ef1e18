import Reflash.Image.Compare
import Reflash.Proofs.Rom.Conduct
/-!
# Causes of failures

What an operation on a ROM can fail for: an engine or a write that is not ready in time, a latch
that does not take, an image that is missing or of the wrong size, words that differ. None fails
because of the order of an update's steps.
-/

namespace Reflash

/-- The cause lies in the work itself, not in the order in which it was asked for. -/
def RomError.IsOfWork : RomError → Prop
  | outOfSequence => False
  | imageNotLoaded | readyTimeout _ | writeTimeout _ | rebootTimeout _ | writeEnableFailed _
  | badTransferSize _ | sizeMismatch _ _ | verifyMismatch _ _ => True

section Board

variable {σ ε : Type} {holds : σ → Prop} {causes : ε → Prop} {b : Board}

theorem Job.confines_remark (r : Remark) :
    (Job.remark r : Job σ ε Unit).Confines holds causes := .request (I := engine) (.remark r)

theorem Job.confines_pause (milliseconds : Nat) :
    (Job.pause milliseconds : Job σ ε Unit).Confines holds causes :=
  .ite (.pure ()) (.request (I := engine) (.pause milliseconds))

namespace Board

theorem confines_address (offset : UInt32) :
    (b.address offset : Job σ ε UInt32).Confines holds causes := by
  rw [Board.address]
  split
  · exact .pure _
  · exact .offBus

theorem confines_read (offset : UInt32) :
    (b.read offset : Job σ ε UInt32).Confines holds causes :=
  .bind (confines_address offset) fun address => .request (I := engine) (.read address)

theorem confines_write (offset value : UInt32) :
    (b.write offset value : Job σ ε Unit).Confines holds causes :=
  .bind (confines_address offset) fun address => .request (I := engine) (.write address value)

theorem confines_probe (offset : UInt32) :
    (b.probe offset : Job σ ε (Option UInt32)).Confines holds causes := by
  refine .bind (confines_address offset) fun address => ?_
  refine .bind (.request (I := engine) (.probe address)) fun answered => .ite ?_ (.pure none)
  exact .bind (.request (I := engine) (.read address)) fun value => .pure (some value)

theorem confines_writeAll (writes : List (UInt32 × UInt32)) :
    (b.writeAll writes : Job σ ε Unit).Confines holds causes := by
  induction writes with
  | nil => exact .pure ()
  | cons w rest ih => exact .bind (confines_write w.1 w.2) fun _ => ih

theorem confines_issue (cmd : Rom.Command) :
    (b.issue cmd : Job σ ε Unit).Confines holds causes :=
  .bind (Job.confines_remark _) fun _ => confines_writeAll _

theorem confines_awaitReady {causes : RomError → Prop} {tries : Nat}
    (htries : causes (.readyTimeout tries)) (left : Nat) :
    (b.awaitReady tries left : Job σ RomError Nat).Confines holds causes := by
  have hready : (b.engineReady : Job σ RomError Bool).Confines holds causes :=
    .bind (confines_read _) fun _ => .pure _
  induction left with
  | zero => exact .fail htries
  | succ left ih => exact .bind hready fun _ => .ite (.pure _) ih

theorem confines_readStatus (readyTries : Nat) :
    (b.readStatus readyTries : Job σ RomError UInt32).Confines holds RomError.IsOfWork := by
  refine .bind (confines_awaitReady trivial _) fun _ => .bind (confines_issue _) fun _ => ?_
  exact .bind (confines_awaitReady trivial _) fun _ => confines_read _

theorem confines_awaitWrite (onTick : Exchange Unit) (readyTries interval tries left : Nat) :
    (b.awaitWrite readyTries interval onTick tries left : Job σ RomError Nat).Confines holds
      RomError.IsOfWork := by
  induction left with
  | zero => exact .fail trivial
  | succ left ih =>
      refine .bind (confines_readStatus _) fun status => .ite ?_ ?_
      · exact .bind (.lift onTick) fun _ => .bind (Job.confines_pause _) fun _ => ih
      · exact .bind (Job.confines_remark _) fun _ => .pure _

end Board
end Board

/-! ## Sessions -/

def RomJob.IsWork {α : Type} (work : RomJob α) : Prop :=
  work.Confines (fun _ => True) RomError.IsOfWork

namespace RomSession

variable (onTick : Exchange Unit)

theorem isWork_count (f : RomCounts → RomCounts) : RomJob.IsWork (count f) :=
  .modify fun _ _ => trivial

/-! ### Parts that only wait for the engine -/

section Waiting

variable {causes : RomError → Prop} (htries : ∀ tries, causes (.readyTimeout tries))
include htries

theorem confines_waitReady : waitReady.Confines (fun _ => True) causes :=
  .get_bind fun _ => .bind (Board.confines_awaitReady (htries _) _) fun _ => .pure ()

theorem confines_awaitEngine : awaitEngine.Confines (fun _ => True) causes :=
  .get_bind fun _ => .bind (Board.confines_awaitReady (htries _) _) fun _ => .pure ()

theorem confines_command (cmd : Rom.Command) : (command cmd).Confines (fun _ => True) causes :=
  .bind (confines_waitReady htries) fun _ => .get_bind fun _ =>
    .bind (Board.confines_issue cmd) fun _ => .ite (.modify fun _ _ => trivial) (.pure ())

theorem confines_query (cmd : Rom.Command) : (query cmd).Confines (fun _ => True) causes :=
  .bind (confines_command htries cmd) fun _ => .bind (confines_waitReady htries) fun _ =>
    .get_bind fun _ => Board.confines_read _

theorem confines_readWordsFrom (index : Nat) (sofar : List UInt32) (count : Nat) :
    (readWordsFrom onTick index sofar count).Confines (fun _ => True) causes := by
  induction count generalizing index sofar with
  | zero => exact .pure _
  | succ count ih =>
      have hword : (readWord (Rom.wordAddress index) (Rom.endsPage index)).Confines
          (fun _ => True) causes :=
        .bind (confines_query htries _) fun _ => .bind (.modify fun _ _ => trivial) fun _ =>
          .pure _
      exact .bind hword fun word => .bind (.lift onTick) fun _ => ih (index + 1) (word :: sofar)

/-- Only the size of what is read is another cause for a download to fail. -/
theorem confines_download {sizeBytes : Nat}
    (hsize : sizeBytes % Rom.wordBytes ≠ 0 ∨ Rom.capacity < sizeBytes →
      causes (.badTransferSize sizeBytes)) :
    (download sizeBytes onTick).Confines (fun _ => True) causes := by
  rw [download]
  split
  next hbad => exact .fail (hsize hbad)
  next =>
    refine .bind (.modify fun _ _ => trivial) fun _ => .bind ?_ fun words =>
      .modify fun _ _ => trivial
    exact .within (confines_readWordsFrom onTick htries 0 [] _) (fun _ _ => trivial)
      fun _ _ _ _ => trivial

end Waiting

/-! ### Parts that write -/

theorem isWork_enableWrites : RomJob.IsWork enableWrites := by
  refine .bind (confines_command (fun _ => trivial) _) fun _ => .bind (isWork_count _) fun _ => ?_
  refine .bind (.get_bind fun _ => Board.confines_readStatus _) fun status => ?_
  exact .ite (.fail trivial) (.pure ())

theorem isWork_awaitWrite (tries : Nat) : RomJob.IsWork (awaitWrite tries onTick) :=
  .get_bind fun _ => Board.confines_awaitWrite onTick _ _ _ _

theorem isWork_startErase : RomJob.IsWork startErase :=
  .bind isWork_enableWrites fun _ => confines_command (fun _ => trivial) _

theorem isWork_awaitErase : RomJob.IsWork (awaitErase onTick) :=
  .get_bind fun _ => .bind (isWork_awaitWrite onTick _) fun _ =>
    .bind (Job.confines_remark _) fun _ => .pure _

theorem isWork_putWord (address word : UInt32) (lastOfPage : Bool) :
    RomJob.IsWork (putWord address word lastOfPage) := by
  refine .bind (confines_command (fun _ => trivial) _) fun _ => .bind (isWork_count _) fun _ => ?_
  refine .ite ?_ (.pure ())
  refine .bind (isWork_count _) fun _ => .get_bind fun _ => ?_
  exact .bind (isWork_awaitWrite _ _) fun _ => .pure ()

theorem isWork_writeWord (address word : UInt32) (lastOfPage : Bool) :
    RomJob.IsWork (writeWord address word lastOfPage) := by
  have hput := isWork_putWord address word lastOfPage
  rw [writeWord_eq]
  exact .ite (.bind isWork_enableWrites fun _ => hput) hput

theorem isWork_writeWordsFrom (index : Nat) (words : List UInt32) :
    RomJob.IsWork (writeWordsFrom onTick index words) := by
  induction words generalizing index with
  | nil => exact .pure index
  | cons word rest ih =>
      exact .bind (isWork_writeWord _ _ _) fun _ => .bind (.lift onTick) fun _ => ih (index + 1)

theorem isWork_program (image : Image) : RomJob.IsWork (program image onTick) := by
  rw [program]
  cases image.contents? with
  | none => exact .fail trivial
  | some words =>
      refine .ite (.fail trivial) (.bind (isWork_writeWordsFrom onTick 0 words) fun behind => ?_)
      exact isWork_writeWord _ _ _

end RomSession

/-! ## Comparing images -/

namespace Image

variable {σ : Type} {holds : σ → Prop} (onTick : Exchange Unit)

theorem confines_compareFrom (index : Nat) (tally : Tally) (pairs : List (UInt32 × UInt32)) :
    (compareFrom onTick index tally pairs : Job σ RomError Tally).Confines holds
      RomError.IsOfWork := by
  have htick : (Routine.lift onTick : Job σ RomError Unit).Confines holds RomError.IsOfWork :=
    .lift onTick
  induction pairs generalizing index tally with
  | nil => exact .pure tally
  | cons pair rest ih =>
      rw [compareFrom]
      refine .ite (.bind htick fun _ => ih (index + 1) tally) ?_
      dsimp only
      split
      · exact .bind (Job.confines_remark _) fun _ => .bind htick fun _ => ih (index + 1) _
      · exact .bind htick fun _ => ih (index + 1) _

theorem confines_compare (file rom : Image) :
    (file.compare rom onTick : Job σ RomError Unit).Confines holds RomError.IsOfWork := by
  refine .ite (.fail trivial) (.ite (.fail trivial) ?_)
  exact .bind (confines_compareFrom onTick 0 {} _) fun tally => .ite (.fail trivial) (.pure ())

end Image
end Reflash
