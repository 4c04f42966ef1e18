import Reflash.Proofs.Rom.Conduct
import Reflash.Update.Board
/-!
# Conduct of a board's update

What the update of a board may ask of the bus, whatever the bus answers. Besides the requests of a
ROM session there is one reset, the reads and probes that wait for the board's return, and the one
request that reboots the board, which only `startReboot` makes.
-/

namespace Reflash

namespace Board

/-- The requests of the board's update, apart from the one that reboots the board. -/
def Updates (b : Board) (r : Request) : Prop :=
  b.Drives r ∨ r = .write (b.base + Register.reset) ResetRequest.both ∨
    r = .probe (b.base + Register.controlVersion) ∨ r = .read (b.base + Register.controlVersion)

def Owns (b : Board) (r : Request) : Prop :=
  b.Updates r ∨ r = .write (b.base + Register.command) Control.reboot

def reboots (b : Board) : Access → Bool
  | .write address value => address == b.base + Register.command && hasBits value Control.reboot
  | .read _ _ | .probe _ _ => false

theorem Updates.of_isSilent {b : Board} {r : Request} (h : r.IsSilent) : b.Updates r :=
  .inl (Drives.of_isSilent h)

theorem Updates.reboots_eq_false {b : Board} {r : Request} (hr : b.Updates r) {answer : r.Answer}
    {cycle : Access} (hcycle : Access.of? r answer = some cycle) : b.reboots cycle = false := by
  have hother : ∀ offset value : UInt32, offset ≠ Register.command →
      b.reboots (.write (b.base + offset) value) = false := by
    intro offset value hoffset
    have hne : b.base + offset ≠ b.base + Register.command := by
      intro heq
      exact hoffset (UInt32.add_right_inj b.base |>.mp heq)
    simp [reboots, hne]
  obtain hdrives | rfl | rfl | rfl := hr
  · cases r with
    | read => cases hcycle; rfl
    | write address value =>
        cases hcycle
        obtain ⟨rfl, hword⟩ | ⟨rfl, -⟩ | rfl := hdrives
        · simp [reboots, hword.hasBits_reboot]
        · exact hother _ _ (by decide)
        · exact hother _ _ (by decide)
    | probe => exact hdrives.elim
    | pause | tick | remark | report => cases hcycle
  · cases hcycle
    exact hother _ _ (by decide)
  · cases hcycle
    rfl
  · cases hcycle
    rfl

end Board

/-! ## Comparing images -/

namespace Image

variable {σ : Type} {holds : σ → Prop} {onTick : Exchange Unit}

theorem keeps_compareFrom (hticks : onTick.IsSilent) (index : Nat) (tally : Tally)
    (pairs : List (UInt32 × UInt32)) :
    (compareFrom onTick index tally pairs : Job σ RomError Tally).Keeps Request.IsSilent holds := by
  have htick : (Routine.lift onTick : Job σ RomError Unit).Keeps Request.IsSilent holds :=
    .lift hticks
  induction pairs generalizing index tally with
  | nil => exact .pure tally
  | cons pair rest ih =>
      rw [compareFrom]
      split
      · exact .bind htick fun _ => ih (index + 1) tally
      · have hrest := Routine.Keeps.bind htick fun _ =>
          ih (index + 1) (tally.add ⟨index, pair.1, pair.2⟩)
        dsimp only
        split
        · exact .bind (Job.keeps_remark trivial) fun _ => hrest
        · exact hrest

theorem keeps_compare (hticks : onTick.IsSilent) (file rom : Image) :
    (file.compare rom onTick : Job σ RomError Unit).Keeps Request.IsSilent holds := by
  refine .ite (.fail _) (.ite (.fail _) ?_)
  exact .bind (keeps_compareFrom hticks 0 {} _) fun tally => .ite (.fail _) (.pure ())

end Image

namespace BoardUpdate

variable {α : Type} {b : Board} {onTick : Exchange Unit} {allowed : Request → Prop}

theorem keeps_moveTo (phase : Phase) :
    (moveTo phase).Keeps allowed fun u => u.board = b :=
  .modify fun _ hu => hu

theorem keeps_require (start : Phase) (step : Step) :
    (require start step).Keeps allowed fun u => u.board = b := by
  refine .get_bind fun u hu => ?_
  cases u.failure? with
  | some failure => exact .fail failure
  | none => exact .ite (.fail _) (.pure ())

theorem keeps_conclude (step : Step) (next : Phase) {work : Job BoardUpdate RomError α}
    (hwork : work.Keeps b.Updates fun u => u.board = b) :
    (conclude step next work).Keeps b.Updates fun u => u.board = b := by
  have hsilent : ∀ r : Remark, b.Updates (.remark r) := fun r => .inl trivial
  refine .get_bind fun u hu => .bind hwork.attempt fun result => ?_
  cases result with
  | ok value =>
      refine .bind (Job.keeps_remark (hsilent _)) fun _ => ?_
      exact .bind (keeps_moveTo next) fun _ => .pure value
  | error cause =>
      refine .bind (Job.keeps_remark (hsilent _)) fun _ => ?_
      exact .bind (keeps_moveTo _) fun _ => .fail _

theorem keeps_onRom (hb : b.Fits) {work : RomJob α} (hwork : RomJob.IsProper work) :
    (onRom work).Keeps b.Updates fun u => u.board = b :=
  .within ((hwork b hb).mono fun _ => .inl) (fun _ hu => hu) fun _ _ _ hs => hs

theorem keeps_reset (hb : b.Fits) : reset.Keeps b.Updates fun u => u.board = b := by
  refine .bind (keeps_require _ _) fun _ => .get_bind fun u hu => ?_
  rw [hu, hb.write_eq (by decide)]
  refine .bind (.request (.inr (.inl rfl))) fun _ => ?_
  exact .bind (Job.keeps_pause (.inl trivial)) fun _ => keeps_moveTo _

theorem isProper_identify : RomJob.IsProper (do RomSession.awaitEngine; RomSession.readId) :=
  fun b hb => .bind (RomSession.isProper_awaitEngine b hb) fun _ =>
    RomSession.isProper_readId b hb

theorem keeps_waitReady (hb : b.Fits) : waitReady.Keeps b.Updates fun u => u.board = b := by
  refine .bind (keeps_require _ _) fun _ => ?_
  refine .bind (keeps_conclude _ _ (keeps_onRom hb isProper_identify)) fun id => ?_
  exact .get_bind fun u hu => Job.keeps_remark (.inl trivial)

theorem keeps_startErase (hb : b.Fits) : startErase.Keeps b.Updates fun u => u.board = b :=
  .bind (keeps_require _ _) fun _ =>
    keeps_conclude _ _ (keeps_onRom hb RomSession.isProper_startErase)

theorem keeps_awaitErase (hb : b.Fits) (hticks : onTick.IsSilent) :
    (awaitErase onTick).Keeps b.Updates fun u => u.board = b := by
  refine .bind (keeps_require _ _) fun _ => ?_
  have hwork := keeps_onRom hb (RomSession.isProper_awaitErase hticks)
  exact .bind (keeps_conclude _ _ hwork) fun _ => .pure ()

theorem keeps_program (hb : b.Fits) (hticks : onTick.IsSilent) (file : Image) :
    (program file onTick).Keeps b.Updates fun u => u.board = b :=
  .bind (keeps_require _ _) fun _ =>
    keeps_conclude _ _ (keeps_onRom hb (RomSession.isProper_program hticks file))

theorem keeps_downloadWork (hb : b.Fits) (hticks : onTick.IsSilent) (sizeBytes : Nat) :
    ((RomSession.download sizeBytes onTick).within
      (fun u : BoardUpdate => (u.rom, u.readback))
      (fun u (rom, readback) => { u with rom, readback })).Keeps b.Updates
        fun u => u.board = b :=
  .within ((RomSession.keeps_download hb hticks sizeBytes).mono fun _ => .inl)
    (fun _ hu => hu) fun _ _ _ hs => hs

theorem keeps_download (hb : b.Fits) (hticks : onTick.IsSilent) (sizeBytes : Nat) :
    (download sizeBytes onTick).Keeps b.Updates fun u => u.board = b :=
  .bind (keeps_require _ _) fun _ => keeps_conclude _ _ (keeps_downloadWork hb hticks sizeBytes)

theorem keeps_compare (hticks : onTick.IsSilent) (file rom : Image) :
    (file.compare rom onTick).Keeps b.Updates fun u : BoardUpdate => u.board = b :=
  (Image.keeps_compare hticks file rom).mono fun _ => Board.Updates.of_isSilent

theorem keeps_verify (hticks : onTick.IsSilent) (file : Image) :
    (verify file onTick).Keeps b.Updates fun u => u.board = b :=
  .bind (keeps_require _ _) fun _ => .get_bind fun _ _ =>
    keeps_conclude _ _ (keeps_compare hticks file _)

theorem keeps_startReboot (hb : b.Fits) : startReboot.Keeps b.Owns fun u => u.board = b := by
  refine .bind (keeps_require _ _) fun _ => .get_bind fun u hu => ?_
  rw [hu, Board.requestReboot, hb.write_eq (by decide)]
  refine .bind (.request (.inr rfl)) fun _ => ?_
  exact .bind (Job.keeps_pause (.inl (.inl trivial))) fun _ => keeps_moveTo _

theorem keeps_pollVersion (hb : b.Fits) (hticks : onTick.IsSilent) (interval tries left : Nat) :
    (pollVersion onTick b interval tries left).Keeps b.Updates fun u => u.board = b := by
  have htick : (Routine.lift onTick : Job BoardUpdate RomError Unit).Keeps b.Updates fun u =>
      u.board = b :=
    .lift (hticks.mono (fun _ => Board.Updates.of_isSilent) fun _ _ => trivial)
  induction left with
  | zero => exact .fail _
  | succ left ih =>
      have hprobe : (b.probe Register.controlVersion : Job BoardUpdate RomError _).Keeps b.Updates
          fun u => u.board = b :=
        Board.keeps_probe hb (by decide) (.inr (.inr (.inl rfl))) (.inr (.inr (.inr rfl)))
      refine .bind hprobe fun version? => .ite ?_ (Job.keeps_remark (.inl trivial))
      exact .bind htick fun _ => .bind (Job.keeps_pause (.inl trivial)) fun _ => ih

theorem keeps_awaitReboot (hb : b.Fits) (hticks : onTick.IsSilent) :
    (awaitReboot onTick).Keeps b.Updates fun u => u.board = b := by
  refine .bind (keeps_require _ _) fun _ => .get_bind fun u hu => keeps_conclude _ _ ?_
  have hboard : u.rom.board = b := hu
  rw [hboard]
  exact keeps_pollVersion hb hticks _ _ _

theorem keeps_announced (hreport : ∀ e, allowed (.report e)) (step : Step)
    {body : Exchange Unit → UpdateJob Unit}
    (hbody : ∀ e, (body (Exchange.report e)).Keeps allowed fun u => u.board = b) :
    (announced step body).Keeps allowed fun u => u.board = b := by
  have hlift : ∀ e, (Routine.lift (Exchange.report e) : UpdateJob Unit).Keeps allowed fun u =>
      u.board = b := fun e => .lift ⟨hreport e, fun _ => trivial⟩
  refine .get_bind fun u hu => .bind (hlift _) fun _ => ?_
  exact .bind (hbody _) fun _ => hlift _

/-! ## The parts of an update -/

def wipe : UpdateJob Unit := do
  announced .init fun _ => do
    reset
    waitReady
  announced .erase fun onTick => do
    startErase
    awaitErase onTick

def refill (file : Image) : UpdateJob Unit := do
  announced .program (program file)
  announced .download (download file.sizeBytes)
  announced .verify (verify file)

def prepare (file : Image) : UpdateJob Unit := do
  wipe
  refill file

def restart : UpdateJob Unit :=
  announced .reboot fun onTick => do
    startReboot
    awaitReboot onTick

theorem runSteps_eq (file : Image) :
    runSteps file = prepare file >>= fun _ => restart := by
  simp only [runSteps, prepare, wipe, refill, restart, bind_assoc]

theorem keeps_wipe (hb : b.Fits) : wipe.Keeps b.Updates fun u => u.board = b := by
  have hreport : ∀ e, b.Updates (.report e) := fun e => .inl trivial
  refine .bind (keeps_announced hreport _ fun e => ?_) fun _ =>
    keeps_announced hreport _ fun e => ?_
  · exact .bind (keeps_reset hb) fun _ => keeps_waitReady hb
  · exact .bind (keeps_startErase hb) fun _ => keeps_awaitErase hb (Exchange.isSilent_report e)

theorem keeps_refill (hb : b.Fits) (file : Image) :
    (refill file).Keeps b.Updates fun u => u.board = b := by
  have hreport : ∀ e, b.Updates (.report e) := fun e => .inl trivial
  have hticks := fun e => Exchange.isSilent_report e
  refine .bind (keeps_announced hreport _ fun e => keeps_program hb (hticks e) file) fun _ => ?_
  refine .bind (keeps_announced hreport _ fun e => keeps_download hb (hticks e) _) fun _ => ?_
  exact keeps_announced hreport _ fun e => keeps_verify (hticks e) file

theorem keeps_prepare (hb : b.Fits) (file : Image) :
    (prepare file).Keeps b.Updates fun u => u.board = b :=
  .bind (keeps_wipe hb) fun _ => keeps_refill hb file

theorem keeps_restart (hb : b.Fits) : restart.Keeps b.Owns fun u => u.board = b := by
  have hreport : ∀ e, b.Owns (.report e) := fun e => .inl (.inl trivial)
  refine keeps_announced hreport _ fun e => .bind (keeps_startReboot hb) fun _ => ?_
  exact (keeps_awaitReboot hb (Exchange.isSilent_report e)).mono fun _ => .inl

theorem keeps_runSteps (hb : b.Fits) (file : Image) :
    (runSteps file).Keeps b.Owns fun u => u.board = b := by
  rw [runSteps_eq]
  exact .bind ((keeps_prepare hb file).mono fun _ => .inl) fun _ => keeps_restart hb

theorem keeps_run (hb : b.Fits) (file : Image) :
    (run file).Keeps b.Owns fun u => u.board = b := by
  refine .bind (keeps_runSteps hb file).attempt fun result => ?_
  cases result with
  | ok => exact .pure ()
  | error failure =>
      have hlines := Exchange.isSilent_reportAll failure.events
      refine .bind (.lift (hlines.mono ?_ fun _ _ => trivial)) fun _ => .fail failure
      exact fun _ h => .inl (Board.Updates.of_isSilent h)

end BoardUpdate
end Reflash
