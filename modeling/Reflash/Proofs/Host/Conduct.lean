import Reflash.Proofs.Host.Reading
import Reflash.Proofs.Host.Turns
import Reflash.Proofs.Update.CrateConduct
/-!
# Conduct of the tool

What each part of a run may ask for once the boards to work on are settled: requests that concern
these boards, and requests that are not for the bus. This holds whatever the bus, the files and the
user answer.
-/

namespace Reflash.Host

namespace ToolRequest

variable {boards : List Board} {b : Board}

def IsQuiet : ToolRequest → Prop
  | .engine r => r.IsSilent
  | .simulate _ | .openWindow _ | .readLine => False
  | .failedCycles | .readFile _ | .writeFile _ _ | .print _ => True

def Concerns (boards : List Board) : ToolRequest → Prop
  | .engine r => CrateUpdate.Concerns boards r
  | .simulate _ | .openWindow _ => False
  | .failedCycles | .readFile _ | .writeFile _ _ | .print _ | .readLine => True

theorem IsQuiet.concerns {r : ToolRequest} (h : IsQuiet r) : Concerns boards r := by
  cases r with
  | engine r => exact .inl h
  | simulate | openWindow | readLine => exact h.elim
  | failedCycles | readFile | writeFile | print => trivial

theorem concerns_of_drives {r : Request} (hr : b.Drives r) : Concerns [b] (.engine r) :=
  .inr ⟨b, List.mem_singleton_self b, .inl (.inl (.inl hr))⟩

end ToolRequest

namespace Order

open Text ToolRequest

variable {boards : List Board} {registry : Registry}

/-- What programming a board comes to once there is an image and the user has agreed. -/
def reprogram (o : Order) (board : Board) (file : Image) : Run Unit := do
  let _ ← Run.must .programmingFailed (BoardUpdate.run file)
    (.new board o.config.update.budgets o.config.update.timing)
  let version ← Run.always board.readVersion
  let passed := styled o.colored .good "passed"
  Run.say s!"slot {board.slot.number}: {passed}, firmware {version.text}"

theorem program_eq (o : Order) (board : Board) :
    o.program board = (do
      let file ← o.readImage
      o.confirm 1
      o.reprogram board file) := rfl

def reprogramAll (o : Order) (registry : Registry) (file : Image) : Run Unit := do
  let (report, _) ← Run.must .romFailed
    (CrateUpdate.run registry o.config.update file o.arguments.force) ()
  Run.say (o.summary report)
  if !report.allOk then
    Routine.fail (.boardsFailed report.failed)

theorem updateAll_eq (o : Order) (registry : Registry) :
    o.updateAll registry = (do
      let file ← o.readImage
      o.confirm registry.size
      o.reprogramAll registry file) := rfl

theorem asks_remark (r : Remark) : Run.Asks IsQuiet (Run.remark r) := by
  have hremark : ((Job.remark r : Job Unit Empty Unit) ()).Keeps Request.IsSilent fun _ => True :=
    ⟨trivial, fun _ => trivial⟩
  exact Run.asks_always hremark fun _ hr => hr

theorem asks_readImage (o : Order) : Run.Asks IsQuiet o.readImage := by
  refine .bind (Run.asks_ofExcept _) fun _ => .bind (Run.asks_ask trivial) fun _ => ?_
  exact .bind (Run.asks_ofExcept _) fun image => .bind (asks_remark _) fun _ => Run.asks_pure image

def judge (o : Order) (board : Board) (file rom : Image) : Run Unit := do
  match ← Run.engine (file.compare rom Exchange.silent) () with
  | (.ok (), _) =>
    Run.say (s!"slot {board.slot.number}: " ++ styled o.colored .good "verified")
  | (.error cause, _) =>
    let failure : StepFailure := ⟨board.slot, .verify, cause⟩
    Run.always (Routine.lift (Exchange.reportAll failure.events))
    Routine.fail (.stepFailed failure)

theorem verify_eq (o : Order) (board : Board) :
    o.verify board = (do
      let file ← o.readImage
      let rom ← o.readBack board file.sizeBytes
      o.judge board file rom) := rfl

theorem asks_judge (o : Order) (b : Board) (file rom : Image) :
    Run.Asks IsQuiet (o.judge b file rom) := by
  have hcompare : (file.compare rom Exchange.silent : Job Unit RomError Unit).Keeps
      Request.IsSilent fun _ => True := Image.keeps_compare Exchange.isSilent_silent file rom
  have hlines : ∀ events, (Routine.lift (Exchange.reportAll events) :
      Job Unit Empty Unit).Keeps Request.IsSilent fun _ => True :=
    fun events => .lift (Exchange.isSilent_reportAll events)
  refine .bind (Run.asks_engine (hcompare () trivial) fun _ hr => hr) ?_
  rintro ⟨result, _⟩
  cases result with
  | ok => exact Run.asks_ask trivial
  | error cause =>
      exact .bind (Run.asks_always (hlines _ () trivial) fun _ hr => hr) fun _ =>
        Run.asks_ofExcept (.error _)

section Work

variable {b : Board} (hb : b.Fits)
include hb

theorem asks_version : Run.Asks (Concerns [b]) (Run.always b.readVersion) := by
  have hversion : (b.readVersion : Job Unit Empty Version).Keeps b.Concerns fun _ => True :=
    Board.keeps_readVersion hb Board.concerns_controlVersion (.inr rfl)
  exact Run.asks_always (hversion () trivial) fun _ hr => .inr ⟨b, List.mem_singleton_self b, hr⟩

theorem asks_identify (o : Order) : Run.Asks (Concerns [b]) (o.identify b) := by
  have hid := BoardUpdate.isProper_identify b hb (o.session b) rfl
  refine .bind (Run.asks_must hid fun _ => concerns_of_drives) fun _ => ?_
  exact .bind (asks_version hb) fun _ => Run.asks_ask trivial

theorem asks_readBack (o : Order) (sizeBytes : Nat) :
    Run.Asks (Concerns [b]) (o.readBack b sizeBytes) := by
  have hread := RomSession.keeps_readBack hb sizeBytes (o.session b, {}) rfl
  rw [readBack_eq]
  exact .bind (Run.asks_must hread fun _ => concerns_of_drives) fun _ => Run.asks_pure _

theorem asks_save (o : Order) : Run.Asks (Concerns [b]) (o.save b) :=
  .bind (Run.asks_ofExcept _) fun _ => .bind (asks_readBack hb o _) fun _ =>
    .bind (Run.asks_ofExcept _) fun _ => .bind (Run.asks_ask trivial) fun _ =>
      .bind (Run.asks_ofExcept _) fun _ => Run.asks_ask trivial

theorem asks_verify (o : Order) : Run.Asks (Concerns [b]) (o.verify b) := by
  have hquiet : ∀ {α : Type} {r : Run α}, Run.Asks IsQuiet r → Run.Asks (Concerns [b]) r :=
    fun h => h.mono (fun _ hr => hr.concerns) fun _ _ => trivial
  rw [verify_eq]
  exact .bind (hquiet (asks_readImage o)) fun file => .bind (asks_readBack hb o _) fun rom =>
    hquiet (asks_judge o b file rom)

theorem asks_reprogram (o : Order) (file : Image) :
    Run.Asks (Concerns [b]) (o.reprogram b file) := by
  have hrun := BoardUpdate.keeps_run hb file
    (.new b o.config.update.budgets o.config.update.timing) rfl
  refine .bind (Run.asks_must hrun fun r hr => ?_) fun _ => ?_
  · exact .inr ⟨b, List.mem_singleton_self b, .inl hr⟩
  · exact .bind (asks_version hb) fun version => Run.asks_ask trivial

end Work

theorem asks_reprogramAll (hboards : ∀ b ∈ registry.boards, b.Fits) (o : Order) (file : Image) :
    Run.Asks (Concerns registry.boards) (o.reprogramAll registry file) := by
  have hrun : (CrateUpdate.run registry o.config.update file o.arguments.force :
      Job Unit RomError Report).Gives (CrateUpdate.Concerns registry.boards) (fun _ => True)
        fun _ _ => True := CrateUpdate.gives_run_of_fits hboards _ _ _
  refine .bind (Run.asks_must (hrun () trivial) fun _ hr => hr) fun (report, _) => ?_
  refine .bind (Run.asks_ask trivial) fun _ => ?_
  split
  · exact Run.asks_ofExcept (.error _)
  · exact Run.asks_pure ()

end Order
end Reflash.Host
