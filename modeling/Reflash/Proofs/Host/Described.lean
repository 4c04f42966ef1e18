import Reflash.Host.Tool
import Reflash.Proofs.Crate.Checking
import Reflash.Proofs.Host.Turns
import Reflash.Proofs.Rom.Causes
/-!
# Described crates

Which descriptions are accepted, what configuration an accepted one gives, and what one is refused
for. Whatever is accepted can be worked with: saving a ROM never fails for the size that the
configuration asks for, on any bus.
-/

namespace Reflash

/-! ## What a run fails for -/

namespace Host.Run

variable {σ ε α : Type} {causes : RunError → Prop}

def FailsFor (causes : RunError → Prop) (r : Run α) : Prop := r.Confines (fun _ => True) causes

theorem failsFor_ask (r : ToolRequest) : (ask r).FailsFor causes := .request (I := workstation) r

theorem failsFor_ofExcept {result : Except RunError α}
    (h : ∀ e, result = .error e → causes e) : FailsFor causes (Routine.ofExcept result) := by
  cases result with
  | ok a => exact .pure a
  | error e => exact .fail (h e rfl)

theorem failsFor_must {wrap : ε → RunError} {job : Job σ ε α} (faults : ε → Prop)
    (hjob : job.Confines (fun _ => True) faults) (hwrap : ∀ e, faults e → causes (wrap e)) (s : σ) :
    (must wrap job s).FailsFor causes := by
  intro t _
  have hresult : (engine job s t).Keeps (fun _ => True) fun (out, _) =>
      (∀ e, out ≠ .failed e) ∧ ∀ e s', out = .ok (.error e, s') → faults e := by
    refine Dialogue.Keeps.bind ((hjob s trivial).embed fun _ _ => trivial) ?_
    rintro ⟨out, s'⟩ ⟨-, hfaults⟩
    cases out with
    | ok a => exact ⟨nofun, nofun⟩
    | offBus => exact ⟨nofun, nofun⟩
    | failed e =>
        refine ⟨nofun, ?_⟩
        rintro _ _ ⟨⟩
        exact hfaults e rfl
  refine Dialogue.Keeps.bind hresult ?_
  rintro ⟨out, t'⟩ ⟨hfailed, hfaults⟩
  cases out with
  | failed e => exact absurd rfl (hfailed e)
  | offBus => exact ⟨trivial, nofun⟩
  | ok result =>
      obtain ⟨result, s'⟩ := result
      refine Routine.Confines.bind (failsFor_ofExcept ?_) (fun a => .pure (a, s')) t' trivial
      cases result with
      | ok a => exact nofun
      | error e =>
          rintro _ ⟨⟩
          exact hwrap e (hfaults e s' rfl)

theorem failsFor_always (job : Job Unit Empty α) : (always job).FailsFor causes := by
  have hjob : job.Confines (fun _ => True) fun _ => True := by
    refine fun s _ => (job s).keeps_true.mono (fun _ => id) ?_
    rintro ⟨out, s'⟩ -
    exact ⟨trivial, fun e => e.elim⟩
  exact .bind (failsFor_must _ hjob nofun ()) fun _ => .pure _

end Host.Run

/-! ## Saving -/

open CrateDescription

variable {ω : Type} {bytes : Nat}

/-- Whatever the bus does, a good size is not refused. -/
theorem RomSession.confines_download_of_isSize (h : IsSize bytes) (onTick : Exchange Unit) :
    (download bytes onTick).Confines (fun _ => True) fun e => ∀ n, e ≠ .badTransferSize n := by
  refine confines_download onTick (fun _ => nofun) fun hbad => ?_
  obtain ⟨-, haligned, hfits⟩ := h
  omega

namespace Host.Order

open Run

def NotForSize (e : RunError) : Prop := ∀ n, e ≠ .romFailed (.badTransferSize n)

variable {o : Order}

theorem failsFor_readBack (h : IsSize bytes) (board : Board) :
    (o.readBack board bytes).FailsFor NotForSize := by
  refine .bind (failsFor_must (fun e => ∀ n, e ≠ .badTransferSize n) ?_ ?_ _) fun _ => .pure _
  · refine .bind ?_ fun _ => RomSession.confines_download_of_isSize h Exchange.silent
    exact .within (RomSession.confines_awaitEngine fun _ => nofun) (fun _ _ => trivial)
      fun _ _ _ _ => trivial
  · rintro e he n ⟨⟩
    exact he n rfl

theorem failsFor_mapError {ε α : Type} {result : Except ε α} {wrap : ε → RunError}
    (h : ∀ e, NotForSize (wrap e)) :
    FailsFor NotForSize (Routine.ofExcept (result.mapError wrap)) := by
  refine failsFor_ofExcept fun e he => ?_
  cases result with
  | ok a => cases he
  | error cause =>
      cases he
      exact h cause

theorem failsFor_save (h : IsSize o.config.update.imageSizeBytes) (board : Board) :
    (o.save board).FailsFor NotForSize := by
  refine .bind (failsFor_mapError fun _ => nofun) fun path => ?_
  refine .bind (failsFor_readBack h board) fun rom => ?_
  refine .bind (failsFor_mapError fun _ => nofun) fun content => ?_
  refine .bind (failsFor_ask _) fun answer => .bind (failsFor_mapError fun _ => nofun) fun _ => ?_
  exact failsFor_ask _

theorem failsFor_findBoards : o.findBoards.FailsFor NotForSize := by
  refine .bind (failsFor_always _) fun found => .bind (failsFor_mapError fun _ => nofun) ?_
  intro registry
  dsimp only
  split
  · exact .bind (.fail nofun) fun _ => .bind (failsFor_always _) fun _ => .pure _
  · exact .bind (failsFor_always _) fun _ => .pure _

theorem failsFor_run_save (h : IsSize o.config.update.imageSizeBytes) :
    (o.run (.single .save)).FailsFor NotForSize :=
  .bind failsFor_findBoards fun _ => .bind (failsFor_mapError fun _ => nofun) fun _ =>
    .bind (failsFor_mapError fun _ => nofun) fun board => failsFor_save h board

end Host.Order

/-! ## What descriptions come to -/

namespace CrateDescription

/-- A description is accepted exactly if its list names different slots of the crate and its image
size, if it gives one, is a nonzero multiple of a word that the ROM can hold. The configuration is
then the described one, with the standard values for what is left open, and no transfer of its image
size is refused, neither by a download nor when the tool saves a ROM. Otherwise the first number
that offends on the list is reported, and the size only if none does. -/
theorem check_is_exact (d : CrateDescription) :
    ((∃ config, d.check = .ok config) ↔
      ((∀ n ∈ d.slots, 1 ≤ n ∧ n ≤ 21) ∧ d.slots.Nodup) ∧
        ∀ bytes, d.imageSizeBytes = some bytes →
          bytes ≠ 0 ∧ bytes % 4 = 0 ∧ bytes ≤ Rom.capacity) ∧
    (∀ config, d.check = .ok config →
      d.Describes config ∧
      (∀ (onTick : Exchange Unit) (start : RomSession × Image) (h : Handler engine ω) (w : ω) n,
        ((RomSession.download config.update.imageSizeBytes onTick start).run h w).1.1 ≠
          .failed (.badTransferSize n)) ∧
      ∀ o : Host.Order, o.config.update.imageSizeBytes = config.update.imageSizeBytes →
        ∀ (h : Handler Host.workstation ω) (w : ω) n,
          ((o.run (.single .save) ()).run h w).1.1 ≠ .failed (.romFailed (.badTransferSize n))) ∧
    ∀ cause, d.check = .error cause ↔
      FirstOffence d.slots cause ∨
        AreSlots d.slots ∧ cause = .badImageSize ∧
          ∃ bytes, d.imageSizeBytes = some bytes ∧ ¬IsSize bytes := by
  refine ⟨?_, fun config hcheck => ?_, fun cause => ?_⟩
  · rw [exists_check_eq_ok_iff]
    exact and_congr_left fun _ => ⟨fun h => ⟨h.inCrate, h.distinct⟩, fun h => ⟨h.1, h.2⟩⟩
  · obtain ⟨-, hsize, hdescribes⟩ := good_of_check hcheck
    have hgood : IsSize config.update.imageSizeBytes := by
      rw [hdescribes.imageSizeBytes, ← isImageSize_iff]
      exact (isImageSize_getD d).mpr hsize
    refine ⟨hdescribes, fun onTick start h w n => ?_, fun o hsame h w n => ?_⟩
    · have hends := RomSession.confines_download_of_isSize hgood onTick start trivial
      exact fun hout => (hends.run h w).2 _ hout n rfl
    · have hends := Host.Order.failsFor_run_save (hsame ▸ hgood) () trivial
      exact fun hout => (hends.run h w).2 _ hout n rfl
  · rw [check_eq_error_iff]
    simp only [Classical.not_forall, exists_prop]

end CrateDescription
end Reflash
