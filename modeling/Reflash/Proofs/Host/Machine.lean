import Reflash.Host.Machine
import Reflash.Proofs.Routine
/-!
# Runs on a workstation in memory

A run is taken apart where its parts are put together. What the update engine does to the simulated
boards of a workstation is what it does to them alone: besides, it only shows and logs something. So
`Ends` tells a run by its outcome, the files and the boards, and leaves the desk out.
-/

namespace Reflash.Host

namespace Machine

variable {α β : Type} {m m' m₁ : Machine}

theorem run_ask (m : Machine) (r : ToolRequest) :
    m.run (Run.ask r) = (.ok (handler r m).1, (handler r m).2) := rfl

theorem run_bind_ok {r : Run α} {f : α → Run β} {a : α} (h : m.run r = (.ok a, m₁)) :
    m.run (r >>= f) = m₁.run (f a) := by
  have hrun : (r ()).run handler m = ((.ok a, ()), m₁) :=
    congrArg (fun p : Outcome RunError α × Machine => ((p.1, ()), p.2)) h
  rw [run, Routine.run_bind_ok hrun, run]

theorem run_bind_failed {r : Run α} {f : α → Run β} {e : RunError}
    (h : m.run r = (.failed e, m₁)) : m.run (r >>= f) = (.failed e, m₁) := by
  have hrun : (r ()).run handler m = ((.failed e, ()), m₁) :=
    congrArg (fun p : Outcome RunError α × Machine => ((p.1, ()), p.2)) h
  rw [run, Routine.run_bind_failed hrun]

theorem ok_of_run_bind {r : Run α} {f : α → Run β} {b : β} (h : m.run (r >>= f) = (.ok b, m')) :
    ∃ a m₁, m.run r = (.ok a, m₁) ∧ m₁.run (f a) = (.ok b, m') := by
  rw [run, Routine.run_bind] at h
  rw [run]
  match hrun : (r ()).run handler m with
  | ((.ok a, ()), m₁) =>
      rw [hrun] at h
      exact ⟨a, m₁, rfl, h⟩
  | ((.failed e, ()), m₁) =>
      rw [hrun] at h
      cases h
  | ((.offBus, ()), m₁) =>
      rw [hrun] at h
      cases h

theorem ok_of_run_ofExcept_bind {ε : Type} {result : Except ε α} {wrap : ε → RunError}
    {f : α → Run β} {b : β}
    (h : m.run (Routine.ofExcept (result.mapError wrap) >>= f) = (.ok b, m')) :
    ∃ a, result = .ok a ∧ m.run (f a) = (.ok b, m') := by
  cases result with
  | ok a => exact ⟨a, rfl, h⟩
  | error e => cases h

end Machine

namespace Run

variable {σ ε α β : Type} {files files₁ files' : Files} {c c₁ c' : SimulatedCrate} {r : Run α}
  {f : α → Run β} {out : Outcome RunError β}

/-- With these files and on this crate, the run ends with this outcome, those files and that
crate. -/
def Ends (r : Run α) (files : Files) (c : SimulatedCrate) (out : Outcome RunError α)
    (files' : Files) (c' : SimulatedCrate) : Prop :=
  ∀ desk, ∃ desk', Machine.run ⟨files, .inr (.ofCrate c), desk⟩ r =
    (out, ⟨files', .inr (.ofCrate c'), desk'⟩)

theorem ends_ofExcept (a : α) : Ends (Routine.ofExcept (.ok a)) files c (.ok a) files c :=
  fun desk => ⟨desk, rfl⟩

theorem Ends.bind {a : α} (h : r.Ends files c (.ok a) files₁ c₁)
    (hf : (f a).Ends files₁ c₁ out files' c') : Run.Ends (r >>= f) files c out files' c' := by
  intro desk
  obtain ⟨desk₁, hrun⟩ := h desk
  obtain ⟨desk', hrest⟩ := hf desk₁
  exact ⟨desk', (Machine.run_bind_ok hrun).trans hrest⟩

theorem Ends.bind_failed {e : RunError} (h : r.Ends files c (.failed e) files' c') :
    Run.Ends (r >>= f) files c (.failed e) files' c' := by
  intro desk
  obtain ⟨desk', hrun⟩ := h desk
  exact ⟨desk', Machine.run_bind_failed hrun⟩

theorem Ends.eq_of_run {m m' : Machine} {out out' : Outcome RunError α}
    (h : r.Ends files c out files' c') (hfiles : m.files = files)
    (hbus : m.bus = .inr (.ofCrate c)) (hrun : m.run r = (out', m')) :
    out' = out ∧ m'.files = files' ∧ m'.bus = .inr (.ofCrate c') := by
  obtain ⟨_, _, desk⟩ := m
  cases hfiles
  cases hbus
  obtain ⟨desk', hends⟩ := h desk
  obtain ⟨rfl, rfl⟩ := Prod.mk.injEq .. ▸ hends.symm.trans hrun
  exact ⟨rfl, rfl, rfl⟩

theorem ends_fail (e : RunError) : Ends (Routine.fail e : Run α) files c (.failed e) files c :=
  fun desk => ⟨desk, rfl⟩

theorem ends_say (line : String) : (say line).Ends files c (.ok ()) files c :=
  fun desk => ⟨desk.print (line ++ "\n"), rfl⟩

theorem ends_readFile (path : String) :
    (ask (.readFile path)).Ends files c (.ok (files.read path)) files c :=
  fun desk => ⟨desk, rfl⟩

theorem ends_writeFile {path : String} {bytes : ByteArray}
    (h : files.write path (.ofBytes bytes) = .ok files') :
    (ask (.writeFile path bytes)).Ends files c (.ok (.ok ())) files' c := by
  intro desk
  have hanswer : Machine.handler (.writeFile path bytes) ⟨files, .inr (.ofCrate c), desk⟩ =
      (.ok (), ⟨files', .inr (.ofCrate c), desk⟩) := by
    rw [Machine.handler, h]
  refine ⟨desk, ?_⟩
  rw [Machine.run_ask, hanswer]

theorem ends_writeFile_failed {path : String} {bytes : ByteArray} {cause : OsError}
    (h : files.write path (.ofBytes bytes) = .error cause) :
    (ask (.writeFile path bytes)).Ends files c (.ok (.error cause)) files c := by
  intro desk
  have hanswer : Machine.handler (.writeFile path bytes) ⟨files, .inr (.ofCrate c), desk⟩ =
      (.error cause, ⟨files, .inr (.ofCrate c), desk⟩) := by
    rw [Machine.handler, h]
  refine ⟨desk, ?_⟩
  rw [Machine.run_ask, hanswer]

/-! ## The update engine -/

private theorem run_embed (d : Exchange α) (files : Files) (c : SimulatedCrate) (desk : Desk) :
    ∃ desk',
      (d.embed (J := workstation) .engine fun _ answer => answer).run Machine.handler
          ⟨files, .inr (.ofCrate c), desk⟩ =
        ((d.run Bus.handler c).1, ⟨files, .inr (.ofCrate (d.run Bus.handler c).2), desk'⟩) := by
  induction d generalizing c desk with
  | done a => exact ⟨desk, rfl⟩
  | ask r next ih =>
      have hstep : ∃ desk', Machine.handler (.engine r) ⟨files, .inr (.ofCrate c), desk⟩ =
          ((Bus.handler r c).1, ⟨files, .inr (.ofCrate (Bus.handler r c).2), desk'⟩) := by
        cases r <;> exact ⟨_, rfl⟩
      obtain ⟨desk₁, hstep⟩ := hstep
      obtain ⟨desk', hrest⟩ := ih (Bus.handler r c).1 (Bus.handler r c).2 desk₁
      refine ⟨desk', ?_⟩
      rw [Dialogue.embed, Dialogue.run, hstep]
      exact hrest

def resultOf : Outcome ε α × σ → Outcome RunError (Except ε α × σ)
  | (.ok a, s) => .ok (.ok a, s)
  | (.failed e, s) => .ok (.error e, s)
  | (.offBus, _) => .offBus

theorem ends_engine (job : Job σ ε α) (s : σ) (files : Files) (c : SimulatedCrate) :
    (engine job s).Ends files c (resultOf ((job s).run Bus.handler c).1) files
      ((job s).run Bus.handler c).2 := by
  intro desk
  obtain ⟨desk', hrun⟩ := run_embed (job s) files c desk
  refine ⟨desk', ?_⟩
  rw [Machine.run, engine, Routine.on, Routine.embed, Dialogue.run_bind, hrun]
  obtain ⟨⟨out, s'⟩, c'⟩ := (job s).run Bus.handler c
  cases out <;> rfl

theorem ends_must {wrap : ε → RunError} {job : Job σ ε α} {s s' : σ} {a : α}
    (h : (job s).run Bus.handler c = ((.ok a, s'), c')) :
    (must wrap job s).Ends files c (.ok (a, s')) files c' := by
  have hengine := ends_engine job s files c
  rw [h] at hengine
  exact hengine.bind fun desk => ⟨desk, rfl⟩

theorem ends_must_failed {wrap : ε → RunError} {job : Job σ ε α} {s s' : σ} {e : ε}
    (h : (job s).run Bus.handler c = ((.failed e, s'), c')) :
    (must wrap job s).Ends files c (.failed (wrap e)) files c' := by
  have hengine := ends_engine job s files c
  rw [h] at hengine
  exact hengine.bind fun desk => ⟨desk, rfl⟩

end Run
end Reflash.Host
