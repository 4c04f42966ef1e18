import Reflash.Proofs.Rom.Conduct
/-!
# Calls of a session

What a caller can ask of a session with a ROM, and how calls follow each other: each is made
whatever came of those before it. At a board on the bus all of them work on that board's ROM only.
-/

namespace Reflash.RomSession

inductive Call where
  | readId
  | readStatus
  | enableWrites
  | disableWrites
  | startErase
  | awaitErase
  | erase (wait : Bool)
  | readWord (address : UInt32) (lastOfPage : Bool)
  | writeWord (address word : UInt32) (lastOfPage : Bool)
  | download (into : Image) (sizeBytes : Nat)
  | program (image : Image)

def Call.job : Call → RomJob Unit
  | readId => do let _ ← RomSession.readId
  | readStatus => do let _ ← RomSession.readStatus
  | enableWrites => RomSession.enableWrites
  | disableWrites => RomSession.disableWrites
  | startErase => RomSession.startErase
  | awaitErase => do let _ ← RomSession.awaitErase Exchange.tick
  | erase wait => RomSession.erase wait Exchange.tick
  | readWord address lastOfPage => do let _ ← RomSession.readWord address lastOfPage
  | writeWord address word lastOfPage => RomSession.writeWord address word lastOfPage
  | download into sizeBytes =>
    (RomSession.download sizeBytes Exchange.tick).within (fun s => (s, into)) fun _ (s, _) => s
  | program image => RomSession.program image Exchange.tick

def calls : List Call → RomJob Unit
  | [] => pure ()
  | call :: rest => do
    let _ ← (call.job.attempt : RomJob (Except RomError Unit))
    calls rest

theorem isProper_disableWrites : RomJob.IsProper disableWrites :=
  isProper_command (by simp [Rom.Command.IsAddressable])

theorem Call.isProper_job (call : Call) : RomJob.IsProper call.job := by
  have hticks := Exchange.isSilent_tick
  intro b hb
  cases call with
  | readId => exact .bind (isProper_readId b hb) fun _ => .pure ()
  | readStatus => exact .bind (isProper_readStatus b hb) fun _ => .pure ()
  | enableWrites => exact isProper_enableWrites b hb
  | disableWrites => exact isProper_disableWrites b hb
  | startErase => exact isProper_startErase b hb
  | awaitErase => exact .bind (isProper_awaitErase hticks b hb) fun _ => .pure ()
  | erase wait =>
      have hwait : RomJob.IsProper (do let _ ← RomSession.awaitErase Exchange.tick) :=
        fun b hb => .bind (isProper_awaitErase hticks b hb) fun _ => .pure ()
      exact .bind (isProper_startErase b hb) fun _ => .ite (hwait b hb) (.pure ())
  | readWord address lastOfPage =>
      exact .bind (isProper_readWord address lastOfPage b hb) fun _ => .pure ()
  | writeWord address word lastOfPage => exact isProper_writeWord address word lastOfPage b hb
  | download into sizeBytes =>
      rw [job]
      exact .within (keeps_download hb hticks sizeBytes) (fun _ hs => hs) fun _ _ _ hs => hs
  | program image => exact isProper_program hticks image b hb

theorem isProper_calls (cs : List Call) : RomJob.IsProper (calls cs) := by
  intro b hb
  induction cs with
  | nil => exact .pure ()
  | cons call rest ih => exact .bind (call.isProper_job b hb).attempt fun _ => ih

end Reflash.RomSession
