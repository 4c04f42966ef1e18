import Reflash.Proofs.Update.Entries
import Reflash.Proofs.Update.Lockstep
/-!
# Conduct of a crate's update

The update of a crate asks nothing that does not concern one of its boards: what an update of the
board asks for, or a look at its firmware. This holds whatever the bus answers and whichever boards
fail.
-/

namespace Reflash

namespace Board

variable {σ ε : Type} {b : Board} {holds : σ → Prop}

def Concerns (b : Board) (r : Request) : Prop :=
  b.Owns r ∨ r = .read (b.base + Register.processingVersion)

theorem keeps_readVersion {allowed : Request → Prop} (hb : b.Fits)
    (hcontrol : allowed (.read (b.base + Register.controlVersion)))
    (hprocessing : allowed (.read (b.base + Register.processingVersion))) :
    (b.readVersion : Job σ ε Version).Keeps allowed holds :=
  .bind (keeps_read hb (by decide) hcontrol) fun _ =>
    .bind (keeps_read hb (by decide) hprocessing) fun _ => .pure _

theorem concerns_controlVersion : b.Concerns (.read (b.base + Register.controlVersion)) :=
  .inl (.inl (.inr (.inr (.inr rfl))))

end Board

namespace CrateUpdate

open BoardUpdate

variable {σ ε : Type} {boards : List Board} {updates : List BoardUpdate} {job : UpdateJob Unit}

def Concerns (boards : List Board) (r : Request) : Prop :=
  r.IsSilent ∨ ∃ b ∈ boards, b.Concerns r

def AreOf (updates : List BoardUpdate) (boards : List Board) : Prop :=
  ∀ u ∈ updates, u.board ∈ boards

theorem keeps_remark (r : Remark) :
    (Job.remark r : Job σ ε Unit).Keeps (Concerns boards) fun _ => True :=
  Job.keeps_remark (.inl trivial)

theorem keeps_lift {d : Exchange Unit} (hd : d.IsSilent) :
    (Routine.lift d : Job σ ε Unit).Keeps (Concerns boards) fun _ => True :=
  .lift (hd.mono (fun _ => .inl) fun _ _ => trivial)

theorem gives_phase (hfits : ∀ b ∈ boards, b.Fits)
    (hjob : ∀ b : Board, b.Fits → job.Keeps b.Owns fun u => u.board = b)
    (hupdates : AreOf updates boards) :
    (phase job updates : Job Report ε _).Gives (Concerns boards) (fun _ => True)
      fun updates' _ => AreOf updates' boards := by
  induction updates with
  | nil => exact .pure fun _ _ => hupdates
  | cons u rest ih =>
      obtain ⟨hu, hrest⟩ := List.forall_mem_cons.mp hupdates
      have hcons : ∀ u' : BoardUpdate, u'.board ∈ boards →
          (phase job rest >>= fun rest' => pure (u' :: rest') : Job Report ε _).Gives
            (Concerns boards) (fun _ => True) fun updates' _ => AreOf updates' boards :=
        fun u' hu' => .bind (ih hrest) fun rest' => .pure fun _ hrest' =>
          List.forall_mem_cons.mpr ⟨hu', hrest'⟩
      rw [phase]
      split
      · exact hcons u hu
      · have hkeeps := (hjob u.board (hfits u.board hu)).mono fun r hr =>
          (.inr ⟨u.board, hu, .inl hr⟩ : Concerns boards r)
        refine .bind (.on_of_keeps hkeeps rfl) ?_
        rintro ⟨result, u'⟩
        refine .of_imp fun hu' => ?_
        rw [← hu'] at hu
        cases result with
        | ok => exact hcons u' hu
        | error failure =>
            have hlines := Exchange.isSilent_reportAll failure.events
            refine .bind (.of_keeps (keeps_lift hlines)) fun _ => ?_
            exact .bind (.modify fun _ _ => trivial) fun _ => hcons u' hu

theorem gives_throughPhases (hfits : ∀ b ∈ boards, b.Fits) (file : Image)
    (hupdates : AreOf updates boards) :
    (throughPhases file updates : Job Report ε _).Gives (Concerns boards) (fun _ => True)
      fun updates' _ => AreOf updates' boards := by
  have hnote : ∀ r, (Job.remark r : Job Report ε Unit).Gives (Concerns boards) (fun _ => True)
      fun _ _ => True := fun r => .of_keeps (keeps_remark r)
  refine .bind (gives_phase hfits moves_reset.keeps hupdates) fun _ => .of_imp fun h => ?_
  refine .bind (gives_phase hfits moves_waitReady.keeps h) fun _ => .of_imp fun h => ?_
  refine .bind (hnote _) fun _ => ?_
  refine .bind (gives_phase hfits moves_startErase.keeps h) fun _ => .of_imp fun h => ?_
  refine .bind (gives_phase hfits moves_awaitErase.keeps h) fun _ => .of_imp fun h => ?_
  refine .bind (hnote _) fun _ => ?_
  refine .bind (gives_phase hfits (moves_refill file).keeps h) fun _ => .of_imp fun h => ?_
  refine .bind (hnote _) fun _ => ?_
  refine .bind (gives_phase hfits moves_startReboot.keeps h) fun _ => .of_imp fun h => ?_
  exact gives_phase hfits moves_awaitReboot.keeps h

theorem keeps_isCurrent {b : Board} (hb : b.Fits) (hmem : b ∈ boards) (target : Version) :
    (isCurrent target b : Job σ ε Bool).Keeps (Concerns boards) fun _ => True := by
  have hversion : (b.readVersion : Job σ ε Version).Keeps (Concerns boards) fun _ => True :=
    Board.keeps_readVersion hb (.inr ⟨b, hmem, Board.concerns_controlVersion⟩)
      (.inr ⟨b, hmem, .inr rfl⟩)
  refine .bind hversion fun version => .ite ?_ (.pure false)
  exact .bind (keeps_remark _) fun _ => .bind (keeps_lift (Exchange.isSilent_report _)) fun _ =>
    .pure true

theorem gives_enlist_of_fits (hfits : ∀ b ∈ boards, b.Fits) (config : UpdateConfig) (force : Bool)
    {rest : List Board} (hrest : rest ⊆ boards) :
    (enlist config force rest : Job Report ε _).Gives (Concerns boards) (fun _ => True)
      fun updates _ => AreOf updates boards := by
  induction rest with
  | nil => exact .pure fun _ _ => nofun
  | cons b rest ih =>
      obtain ⟨hb, hrest⟩ := List.cons_subset.mp hrest
      have hcurrent : (if force then pure false else isCurrent config.target b :
          Job Report ε Bool).Keeps (Concerns boards) fun _ => True :=
        .ite (.pure false) (keeps_isCurrent (hfits b hb) hb _)
      have henter : ∀ st, (Routine.modify fun report => report.add b.slot st :
          Job Report ε Unit).Gives (Concerns boards) (fun _ => True) fun _ _ => True :=
        fun st => .modify fun _ _ => trivial
      have hnew : ∀ updates, AreOf updates boards →
          AreOf (.new b config.budgets config.timing :: updates) boards :=
        fun updates h => List.forall_mem_cons.mpr ⟨hb, h⟩
      rw [enlist_cons]
      refine .bind (.of_keeps hcurrent) fun current => ?_
      split
      · exact .bind (henter _) fun _ => ih hrest
      · refine .bind (henter _) fun _ => .bind (ih hrest) fun updates => ?_
        exact .pure fun _ => hnew updates

theorem gives_fill (hfits : ∀ b ∈ boards, b.Fits) (config : UpdateConfig) (file : Image)
    (force : Bool) :
    (fill boards config file force).Gives (Concerns boards) (fun _ => True) fun _ _ => True := by
  refine .bind (gives_enlist_of_fits hfits config force (.refl boards)) fun updates => ?_
  refine .of_imp fun hupdates => ?_
  have hphases : (runPhases file updates : Job Report RomError Unit).Gives (Concerns boards)
      (fun _ => True) fun _ _ => True := by
    rw [runPhases_eq]
    exact .bind (.of_keeps (keeps_remark _)) fun _ =>
      .bind (gives_throughPhases hfits file hupdates) fun _ => .pure fun _ _ => trivial
  refine .bind hphases fun _ => .bind .get fun report => ?_
  refine .bind (.of_keeps (keeps_lift (Exchange.isSilent_reportAll _))) fun _ => ?_
  exact .bind (.of_keeps (keeps_remark _)) fun _ => .pure fun _ _ => trivial

/-- The update of a crate asks nothing that does not concern one of its boards. -/
theorem gives_run_of_fits {registry : Registry} (hfits : ∀ b ∈ registry.boards, b.Fits)
    (config : UpdateConfig) (file : Image) (force : Bool) :
    (run registry config file force : Job σ RomError Report).Gives (Concerns registry.boards)
      (fun _ => True) fun _ _ => True := by
  rw [run]
  split
  · exact .fail _
  · refine .bind ((gives_fill hfits config file force).on trivial) fun result => ?_
    exact .ofExcept fun _ _ _ _ => trivial

end CrateUpdate
end Reflash
