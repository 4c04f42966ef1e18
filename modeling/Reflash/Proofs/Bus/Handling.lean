import Reflash.Proofs.Bus.Trace
/-!
# Runs on a bus

What the single requests of a job come to on a bus. Only the bus cycles reach it; whatever else a
job asks for leaves the bus and the job's state alone. `Makes` tells what a job does on one bus, the
cycles on it included, and has a rule for each way to build a job.
-/

namespace Reflash

variable {ω : Type} [Bus ω] {σ τ ε ε' α β : Type}

theorem Exchange.IsSilent.run_eq {d : Exchange Unit} (hd : d.IsSilent) (w : ω) :
    d.run Bus.handler w = ((), w) := by
  induction d with
  | done a => rfl
  | ask r next ih =>
      obtain ⟨hr, hnext⟩ := hd
      cases r with
      | read | write | probe => exact hr.elim
      | pause | tick | remark | report => exact ih () (hnext ())

theorem Routine.run_lift_bind {d : Exchange Unit} (hd : d.IsSilent) (f : Unit → Job σ ε α) (t : σ)
    (w : ω) : ((Routine.lift d >>= f) t).run Bus.handler w = (f () t).run Bus.handler w := by
  have hlift : ((Routine.lift d : Job σ ε Unit) t).run Bus.handler w = ((.ok (), t), w) := by
    rw [Routine.lift, Dialogue.run_bind, hd.run_eq]
    rfl
  exact Routine.run_bind_ok hlift

namespace Exchange

theorem run_recorder_append (d : Exchange α) (w : ω) (before : List Access) :
    (d.run Bus.recorder (w, before)).2.2 = before ++ cycles d w := by
  induction d generalizing w before with
  | done a => simp [cycles, Dialogue.run]
  | ask r next ih =>
      rw [cycles, Dialogue.run, Dialogue.run]
      have hrest := ih (Bus.handler r w).1 (Bus.handler r w).2
      calc
        _ = (before ++ (Access.of? r (Bus.handler r w).1).toList) ++ _ := hrest _
        _ = before ++ ([] ++ (Access.of? r (Bus.handler r w).1).toList ++ _) := by simp
        _ = _ := congrArg (before ++ ·) (hrest _).symm

theorem cycles_ask (r : Request) (next : r.Answer → Exchange α) (w : ω) :
    cycles (.ask r next) w = (Access.of? r (Bus.handler r w).1).toList ++
      cycles (next (Bus.handler r w).1) (Bus.handler r w).2 :=
  run_recorder_append (next (Bus.handler r w).1) (Bus.handler r w).2
    (Access.of? r (Bus.handler r w).1).toList

theorem cycles_bind (d : Exchange α) (f : α → Exchange β) (w : ω) :
    cycles (d.bind f) w =
      cycles d w ++ cycles (f (d.run Bus.handler w).1) (d.run Bus.handler w).2 := by
  induction d generalizing w with
  | done a => rfl
  | ask r next ih =>
      rw [Dialogue.bind, cycles_ask, cycles_ask, ih, List.append_assoc]
      rfl

theorem IsSilent.cycles_eq_nil {d : Exchange α} (hd : d.IsSilent) (w : ω) : cycles d w = [] := by
  induction d generalizing w with
  | done a => rfl
  | ask r next ih =>
      rw [cycles_ask, hd.1.of?_eq_none, ih _ (hd.2 _), Option.toList, List.nil_append]

theorem run_eq_of_cycles_eq_nil {d : Exchange α} {w : ω} (h : cycles d w = []) :
    (d.run Bus.handler w).2 = w := by
  induction d generalizing w with
  | done a => rfl
  | ask r next ih =>
      rw [cycles_ask, List.append_eq_nil_iff] at h
      cases r with
      | read | write | probe => exact absurd h.1 (by simp [Access.of?])
      | pause | tick | remark | report => exact ih () h.2

end Exchange

theorem FixedBus.word_of_mem_cycles {d : Exchange α} {s : FixedBus} {address value : UInt32}
    (h : .read address value ∈ Exchange.cycles d s) : value = s.word address := by
  induction d with
  | done a => cases h
  | ask r next ih =>
      rw [Exchange.cycles_ask] at h
      cases r with
      | read address' =>
          rcases List.mem_cons.mp h with heq | hrest
          · cases heq
            rfl
          · exact ih _ hrest
      | write | probe =>
          rcases List.mem_cons.mp h with heq | hrest
          · cases heq
          · exact ih _ hrest
      | pause | tick | remark | report => exact ih _ h

namespace Job

theorem run_read (address : UInt32) (t : σ) (w : ω) :
    ((ask (.read address) : Job σ ε UInt32) t).run Bus.handler w =
      ((.ok (Bus.read w address).1, t), (Bus.read w address).2) := rfl

theorem run_write (address value : UInt32) (t : σ) (w : ω) :
    ((ask (.write address value) : Job σ ε Unit) t).run Bus.handler w =
      ((.ok (), t), Bus.write w address value) := rfl

theorem run_probe (address : UInt32) (t : σ) (w : ω) :
    ((ask (.probe address) : Job σ ε Bool) t).run Bus.handler w =
      ((.ok (Bus.probe w address).1, t), (Bus.probe w address).2) := rfl

theorem run_remark_bind (r : Remark) (f : Unit → Job σ ε α) (t : σ) (w : ω) :
    ((remark r >>= f) t).run Bus.handler w = (f () t).run Bus.handler w := rfl

end Job

/-! ## What a job makes of one bus -/

namespace Routine

variable {s s' s'' : σ} {w w' w'' : ω} {cycles cycles' : List Access} {r : Job σ ε α}
  {f : α → Job σ ε β} {out : Outcome ε α} {out' : Outcome ε β}

/-- From this state and on this bus the job makes these cycles, ends with this outcome, and leaves
that state and that bus. -/
structure Makes (r : Job σ ε α) (s : σ) (w : ω) (cycles : List Access) (out : Outcome ε α) (s' : σ)
    (w' : ω) : Prop where
  run_eq : (r s).run Bus.handler w = ((out, s'), w')
  cycles_eq : Exchange.cycles (r s) w = cycles

theorem exists_makes (r : Job σ ε α) (s : σ) (w : ω) :
    ∃ cycles out s' w', r.Makes s w cycles out s' w' :=
  ⟨_, _, _, _, rfl, rfl⟩

theorem Makes.ends (h : r.Makes s w cycles out s' w') : r.Ends s cycles out s' := by
  have hends := ends_run r s w
  rwa [h.run_eq, h.cycles_eq] at hends

theorem makes_pure (a : α) : (pure a : Job σ ε α).Makes s w [] (.ok a) s w := ⟨rfl, rfl⟩

theorem makes_fail (e : ε) : (fail e : Job σ ε α).Makes s w [] (.failed e) s w := ⟨rfl, rfl⟩

theorem makes_modify (g : σ → σ) : (modify g : Job σ ε Unit).Makes s w [] (.ok ()) (g s) w :=
  ⟨rfl, rfl⟩

theorem makes_get : (get : Job σ ε σ).Makes s w [] (.ok s) s w := ⟨rfl, rfl⟩

theorem makes_remark (remark : Remark) :
    (Job.remark remark : Job σ ε Unit).Makes s w [] (.ok ()) s w := ⟨rfl, rfl⟩

theorem Makes.bind {a : α} (h : r.Makes s w cycles (.ok a) s' w')
    (hf : (f a).Makes s' w' cycles' out' s'' w'') :
    (r >>= f).Makes s w (cycles ++ cycles') out' s'' w'' := by
  constructor
  · rw [run_bind_ok h.run_eq, hf.run_eq]
  · rw [bind_eq, Routine.bind, Exchange.cycles_bind, h.run_eq, h.cycles_eq]
    exact congrArg (cycles ++ ·) hf.cycles_eq

theorem Makes.silent_bind {a : α} (h : r.Makes s w [] (.ok a) s' w')
    (hf : (f a).Makes s' w' cycles out' s'' w'') : (r >>= f).Makes s w cycles out' s'' w'' :=
  h.bind hf

theorem Makes.bind_silent {a : α} (h : r.Makes s w cycles (.ok a) s' w')
    (hf : (f a).Makes s' w' [] out' s'' w'') : (r >>= f).Makes s w cycles out' s'' w'' := by
  have hboth := h.bind hf
  rwa [List.append_nil] at hboth

theorem Makes.bind_failed {e : ε} (h : r.Makes s w cycles (.failed e) s' w') :
    (r >>= f).Makes s w cycles (.failed e) s' w' := by
  constructor
  · exact run_bind_failed h.run_eq
  · rw [bind_eq, Routine.bind, Exchange.cycles_bind, h.run_eq, h.cycles_eq]
    exact List.append_nil cycles

theorem Makes.within {part : τ → σ} {update : τ → σ → τ} {t : τ}
    (h : r.Makes (part t) w cycles out s' w') :
    (r.within part update).Makes t w cycles out (update t s') w' := by
  constructor
  · rw [Routine.within, Dialogue.run_bind, h.run_eq]
    rfl
  · rw [Routine.within, Exchange.cycles_bind, h.run_eq, h.cycles_eq]
    exact List.append_nil cycles

theorem makes_lift {d : Exchange Unit} (hd : d.IsSilent) :
    (lift d : Job σ ε Unit).Makes s w [] (.ok ()) s w := by
  constructor
  · rw [lift, Dialogue.run_bind, hd.run_eq]
    rfl
  · rw [lift, Exchange.cycles_bind, hd.cycles_eq_nil, hd.run_eq]
    rfl

theorem Makes.on {r : Job τ ε α} {t t' : τ} {a : α} (h : r.Makes t w cycles (.ok a) t' w') :
    (r.on t : Job σ ε' _).Makes s w cycles (.ok (.ok a, t')) s w' := by
  constructor
  · rw [Routine.on, Dialogue.run_bind, h.run_eq]
    rfl
  · rw [Routine.on, Exchange.cycles_bind, h.run_eq, h.cycles_eq]
    exact List.append_nil cycles

end Routine
end Reflash
