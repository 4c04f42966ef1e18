import Reflash.Proofs.Bus.Handling
/-!
# Turns told

How often a run tells its caller that a loop took one more turn. What one dialogue tells adds to
what the dialogue before it told, and a dialogue that never asks for a tick tells nothing.
-/

namespace Reflash

def Request.isTick : Request → Bool
  | .tick => true
  | .read _ | .write _ _ | .probe _ | .pause _ | .remark _ | .report _ => false

variable {ω : Type} [Bus ω] {σ τ ε ε' α β : Type}

namespace Exchange

def ticks (d : Exchange α) (w : ω) : Nat := (d.turns Bus.handler w).countP fun turn => turn.1.isTick

theorem ticks_done (a : α) (w : ω) : ticks (.done a) w = 0 := rfl

theorem ticks_ask (r : Request) (next : r.Answer → Exchange α) (w : ω) :
    ticks (.ask r next) w =
      ticks (next (Bus.handler r w).1) (Bus.handler r w).2 + if r.isTick then 1 else 0 := by
  rw [ticks, Dialogue.turns, List.countP_cons]
  rfl

theorem ticks_bind (d : Exchange α) (f : α → Exchange β) (w : ω) :
    ticks (d.bind f) w =
      ticks d w + ticks (f (d.run Bus.handler w).1) (d.run Bus.handler w).2 := by
  induction d generalizing w with
  | done a => rw [ticks_done, Nat.zero_add]; rfl
  | ask r next ih =>
      rw [Dialogue.bind, ticks_ask, ticks_ask, ih, Nat.add_right_comm]
      rfl

theorem ticks_eq_zero {promised : α → Prop} {d : Exchange α}
    (h : d.Keeps (fun r : Request => r.isTick = false) promised) (w : ω) : ticks d w = 0 := by
  have hturns := (h.of_plays (Dialogue.plays_turns Bus.handler d w)).1
  apply List.countP_eq_zero.mpr
  intro turn hturn
  rw [hturns turn hturn]
  exact Bool.false_ne_true

end Exchange

namespace Routine

variable {r : Job σ ε α} {f : α → Job σ ε β} {s s' : σ} {w w' : ω}

theorem ticks_bind_ok {a : α} (hr : (r s).run Bus.handler w = ((.ok a, s'), w')) :
    Exchange.ticks ((r >>= f) s) w = Exchange.ticks (r s) w + Exchange.ticks (f a s') w' := by
  rw [bind_eq, Routine.bind, Exchange.ticks_bind, hr]

theorem ticks_bind_failed {e : ε} (hr : (r s).run Bus.handler w = ((.failed e, s'), w')) :
    Exchange.ticks ((r >>= f) s) w = Exchange.ticks (r s) w := by
  rw [bind_eq, Routine.bind, Exchange.ticks_bind, hr]
  rfl

theorem ticks_within (part : τ → σ) (update : τ → σ → τ) (t : τ) (w : ω) :
    Exchange.ticks ((r.within part update) t) w = Exchange.ticks (r (part t)) w := by
  rw [Routine.within, Exchange.ticks_bind]
  rfl

theorem ticks_lift_tick_bind (f : Unit → Job σ ε α) (s : σ) (w : ω) :
    Exchange.ticks ((lift Exchange.tick >>= f) s) w = Exchange.ticks (f () s) w + 1 :=
  Exchange.ticks_ask .tick _ w

/-! ## What a job makes of one bus, and tells -/

variable {s'' : σ} {w'' : ω} {cycles cycles' : List Access} {out : Outcome ε α}
  {out' : Outcome ε β} {told told' : Nat}

/-- From this state and on this bus the job makes these cycles, ends with this outcome, and leaves
that state and that bus. It tells that many turns. -/
structure Tells (r : Job σ ε α) (s : σ) (w : ω) (cycles : List Access) (told : Nat)
    (out : Outcome ε α) (s' : σ) (w' : ω) : Prop extends r.Makes s w cycles out s' w' where
  ticks_eq : Exchange.ticks (r s) w = told

theorem Makes.tells (h : r.Makes s w cycles out s' w') {holds : σ → Prop} (hs : holds s)
    (hkeeps : r.Keeps (fun r : Request => r.isTick = false) holds) :
    r.Tells s w cycles 0 out s' w' :=
  ⟨h, Exchange.ticks_eq_zero (hkeeps s hs) w⟩

theorem tells_pure (a : α) : (pure a : Job σ ε α).Tells s w [] 0 (.ok a) s w :=
  ⟨makes_pure a, rfl⟩

theorem tells_fail (e : ε) : (fail e : Job σ ε α).Tells s w [] 0 (.failed e) s w :=
  ⟨makes_fail e, rfl⟩

theorem tells_remark (remark : Remark) :
    (Job.remark remark : Job σ ε Unit).Tells s w [] 0 (.ok ()) s w :=
  ⟨makes_remark remark, rfl⟩

theorem tells_get : (get : Job σ ε σ).Tells s w [] 0 (.ok s) s w := ⟨makes_get, rfl⟩

theorem tells_modify (g : σ → σ) :
    (modify g : Job σ ε Unit).Tells s w [] 0 (.ok ()) (g s) w :=
  ⟨makes_modify g, rfl⟩

theorem tells_pause (milliseconds : Nat) :
    (Job.pause milliseconds : Job σ ε Unit).Tells s w [] 0 (.ok ()) s w := by
  unfold Job.pause
  split
  · exact tells_pure ()
  · exact ⟨⟨rfl, rfl⟩, rfl⟩

theorem tells_tick : (lift Exchange.tick : Job σ ε Unit).Tells s w [] 1 (.ok ()) s w :=
  ⟨makes_lift Exchange.isSilent_tick, Exchange.ticks_ask .tick _ w⟩

theorem Tells.bind {a : α} (h : r.Tells s w cycles told (.ok a) s' w')
    (hf : (f a).Tells s' w' cycles' told' out' s'' w'') :
    (r >>= f).Tells s w (cycles ++ cycles') (told + told') out' s'' w'' := by
  refine ⟨h.toMakes.bind hf.toMakes, ?_⟩
  rw [ticks_bind_ok h.run_eq, h.ticks_eq, hf.ticks_eq]

theorem Tells.silent_bind {a : α} (h : r.Tells s w [] 0 (.ok a) s' w')
    (hf : (f a).Tells s' w' cycles' told' out' s'' w'') :
    (r >>= f).Tells s w cycles' told' out' s'' w'' := by
  have hboth := h.bind hf
  rwa [List.nil_append, Nat.zero_add] at hboth

theorem Tells.bind_silent {a : α} (h : r.Tells s w cycles told (.ok a) s' w')
    (hf : (f a).Tells s' w' [] 0 out' s'' w'') :
    (r >>= f).Tells s w cycles told out' s'' w'' := by
  have hboth := h.bind hf
  rwa [List.append_nil] at hboth

theorem Tells.bind_failed {e : ε} (h : r.Tells s w cycles told (.failed e) s' w') :
    (r >>= f).Tells s w cycles told (.failed e) s' w' :=
  ⟨h.toMakes.bind_failed, (ticks_bind_failed h.run_eq).trans h.ticks_eq⟩

theorem Tells.attempt_ok {a : α} (h : r.Tells s w cycles told (.ok a) s' w') :
    (r.attempt : Job σ ε' _).Tells s w cycles told (.ok (.ok a)) s' w' := by
  refine ⟨⟨?_, ?_⟩, ?_⟩
  · rw [attempt, Dialogue.run_bind, h.run_eq]
    rfl
  · rw [attempt, Exchange.cycles_bind, h.run_eq, h.cycles_eq]
    exact List.append_nil cycles
  · rw [attempt, Exchange.ticks_bind, h.run_eq, h.ticks_eq]
    rfl

theorem Tells.attempt_failed {e : ε} (h : r.Tells s w cycles told (.failed e) s' w') :
    (r.attempt : Job σ ε' (Except ε α)).Tells s w cycles told (.ok (.error e)) s' w' := by
  refine ⟨⟨?_, ?_⟩, ?_⟩
  · rw [attempt, Dialogue.run_bind, h.run_eq]
    rfl
  · rw [attempt, Exchange.cycles_bind, h.run_eq, h.cycles_eq]
    exact List.append_nil cycles
  · rw [attempt, Exchange.ticks_bind, h.run_eq, h.ticks_eq]
    rfl

end Routine
end Reflash
