import Reflash.Proofs.Simulation.Command
/-!
# Outlines of boards and updates

What a job does to a simulated board is told up to what no later step depends on: the registers of
the command engine, which every command writes anew, and the counts of bus cycles, commands and
polls. Of a session the counts are left out. `Yields` is the judgement for this: it has one rule for
each way to build a job, so an effect on the outline is put together as the job is.
-/

namespace Reflash

/-- States that have an outline, which leaves out what does not matter. -/
class Outlined (σ : Type) where
  outline : σ → σ

/-- The outline of a board has no registers of the command engine, and of the counts only those of
resets, erases, page commits, dropped words and reboots. -/
instance : Outlined SimulatedBoard where
  outline b :=
    { b with
      control := 0
      address := 0
      data := 0
      readback := 0
      activity :=
        { b.activity with
          reads := 0, writes := 0, commands := 0, endOfCommands := 0, busyReads := 0 } }

instance : Outlined RomSession where
  outline s := { s with counts := {} }

instance : Outlined (RomSession × Image) where
  outline p := (Outlined.outline p.1, p.2)

instance : Outlined BoardUpdate where
  outline u := { u with rom := Outlined.outline u.rom }

def Alike {σ : Type} [Outlined σ] (s t : σ) : Prop := Outlined.outline s = Outlined.outline t

namespace Alike

variable {σ : Type} [Outlined σ] {s t u : σ}

@[refl]
theorem refl (s : σ) : Alike s s := rfl

theorem of_eq (h : s = t) : Alike s t := congrArg Outlined.outline h

theorem outline_eq (h : Alike s t) : Outlined.outline s = Outlined.outline t := h

theorem symm (h : Alike s t) : Alike t s := Eq.symm h

theorem trans (h : Alike s t) (h' : Alike t u) : Alike s u := Eq.trans h h'

theorem map {τ : Type} [Outlined τ] (h : Alike s t) (f : σ → τ)
    (hf : ∀ s, Alike (f (Outlined.outline s)) (f s)) : Alike (f s) (f t) := by
  have hs := (hf s).symm
  rw [h.outline_eq] at hs
  exact hs.trans (hf t)

end Alike

namespace RomSession

variable {s t : RomSession}

theorem alike_iff :
    Alike s t ↔ s.board = t.board ∧ s.budgets = t.budgets ∧ s.timing = t.timing := by
  cases s
  cases t
  simp [Alike, Outlined.outline]

end RomSession

theorem alike_prod_iff {p q : RomSession × Image} : Alike p q ↔ Alike p.1 q.1 ∧ p.2 = q.2 :=
  iff_of_eq (Prod.mk.injEq ..)

namespace BoardUpdate

variable {u v : BoardUpdate}

theorem alike_iff :
    Alike u v ↔ Alike u.rom v.rom ∧ u.phase = v.phase ∧ u.readback = v.readback := by
  cases u
  cases v
  simp [Alike, Outlined.outline]

end BoardUpdate

/-! ## The judgement -/

namespace Routine

variable {σ τ ε ε' α β : Type} [Outlined σ] [Outlined τ] {s s' s'' : σ}
  {b b' b'' : SimulatedBoard} {out : Outcome ε α} {out' : Outcome ε β} {r : Job σ ε α}
  {f : α → Job σ ε β}

/-- From a state and on a board like these, the job ends with this outcome, and leaves a state and a
board like those. -/
def Yields (r : Job σ ε α) (s : σ) (b : SimulatedBoard) (out : Outcome ε α) (s' : σ)
    (b' : SimulatedBoard) : Prop :=
  ∀ ⦃t x⦄, Alike t s → Alike x b →
    ∃ t' x', (r t).run Bus.handler x = ((out, t'), x') ∧ Alike t' s' ∧ Alike x' b'

def Fails (r : Job σ ε α) (s : σ) (b : SimulatedBoard) (e : ε) : Prop :=
  ∃ s' b', r.Yields s b (.failed e) s' b'

theorem Yields.trans (h : r.Yields s b out s' b') (hs : Alike s' s'') (hb : Alike b' b'') :
    r.Yields s b out s'' b'' := by
  intro t x ht hx
  obtain ⟨t', x', hrun, ht', hx'⟩ := h ht hx
  exact ⟨t', x', hrun, ht'.trans hs, hx'.trans hb⟩

theorem yields_pure (a : α) : (pure a : Job σ ε α).Yields s b (.ok a) s b :=
  fun t x ht hx => ⟨t, x, rfl, ht, hx⟩

theorem yields_fail (e : ε) : (fail e : Job σ ε α).Yields s b (.failed e) s b :=
  fun t x ht hx => ⟨t, x, rfl, ht, hx⟩

theorem Yields.bind {a : α} (h : r.Yields s b (.ok a) s' b')
    (hf : (f a).Yields s' b' out' s'' b'') : (r >>= f).Yields s b out' s'' b'' := by
  intro t x ht hx
  obtain ⟨t', x', hrun, ht', hx'⟩ := h ht hx
  rw [run_bind_ok hrun]
  exact hf ht' hx'

theorem Yields.bind_failed {e : ε} (h : r.Yields s b (.failed e) s' b') :
    (r >>= f).Yields s b (.failed e) s' b' := by
  intro t x ht hx
  obtain ⟨t', x', hrun, ht', hx'⟩ := h ht hx
  rw [run_bind_failed hrun]
  exact ⟨t', x', rfl, ht', hx'⟩

theorem Fails.bind {e : ε} (h : r.Fails s b e) : (r >>= f).Fails s b e := by
  obtain ⟨s', b', hr⟩ := h
  exact ⟨s', b', hr.bind_failed⟩

theorem Yields.bind_fails {a : α} {e : ε} (h : r.Yields s b (.ok a) s' b')
    (hf : (f a).Fails s' b' e) : (r >>= f).Fails s b e := by
  obtain ⟨s'', b'', hfails⟩ := hf
  exact ⟨s'', b'', h.bind hfails⟩

theorem yields_get_bind {f : σ → Job σ ε β} (h : ∀ t, Alike t s → (f t).Yields s b out' s' b') :
    (get >>= f).Yields s b out' s' b' := by
  intro t x ht hx
  rw [run_get_bind]
  exact h t ht ht hx

theorem fails_get_bind {f : σ → Job σ ε β} {e : ε} (hf : ∀ t, Alike t s → f t = f s)
    (h : (f s).Fails s b e) : (get >>= f).Fails s b e := by
  obtain ⟨s', b', hfails⟩ := h
  refine ⟨s', b', yields_get_bind fun t ht => ?_⟩
  rw [hf t ht]
  exact hfails

theorem yields_modify {g : σ → σ} (h : ∀ t, Alike t s → Alike (g t) s') :
    (modify g : Job σ ε Unit).Yields s b (.ok ()) s' b :=
  fun t x ht hx => ⟨g t, x, rfl, h t ht, hx⟩

theorem yields_lift {d : Exchange Unit} (hd : d.IsSilent) :
    (lift d : Job σ ε Unit).Yields s b (.ok ()) s b := by
  intro t x ht hx
  refine ⟨t, x, ?_, ht, hx⟩
  rw [lift, Dialogue.run_bind, hd.run_eq]
  rfl

theorem yields_remark (remark : Remark) :
    (Job.remark remark : Job σ ε Unit).Yields s b (.ok ()) s b :=
  fun t x ht hx => ⟨t, x, rfl, ht, hx⟩

theorem yields_pause (milliseconds : Nat) :
    (Job.pause milliseconds : Job σ ε Unit).Yields s b (.ok ()) s b := by
  unfold Job.pause
  split
  · exact yields_pure ()
  · exact fun t x ht hx => ⟨t, x, rfl, ht, hx⟩

theorem Yields.within {part : τ → σ} {update : τ → σ → τ} {v v' : τ}
    (h : r.Yields s b out s' b') (hpart : ∀ w, Alike w v → Alike (part w) s)
    (hupdate : ∀ w t, Alike w v → Alike t s' → Alike (update w t) v') :
    (r.within part update).Yields v b out v' b' := by
  intro w x hw hx
  obtain ⟨t', x', hrun, ht', hx'⟩ := h (hpart w hw) hx
  refine ⟨update w t', x', ?_, hupdate w t' hw ht', hx'⟩
  rw [Routine.within, Dialogue.run_bind, hrun]
  rfl

theorem Yields.attempt {a : α} (h : r.Yields s b (.ok a) s' b') :
    (r.attempt : Job σ ε' (Except ε α)).Yields s b (.ok (.ok a)) s' b' := by
  intro t x ht hx
  obtain ⟨t', x', hrun, ht', hx'⟩ := h ht hx
  refine ⟨t', x', ?_, ht', hx'⟩
  rw [Routine.attempt, Dialogue.run_bind, hrun]
  rfl

theorem Yields.attempt_failed {e : ε} (h : r.Yields s b (.failed e) s' b') :
    (r.attempt : Job σ ε' (Except ε α)).Yields s b (.ok (.error e)) s' b' := by
  intro t x ht hx
  obtain ⟨t', x', hrun, ht', hx'⟩ := h ht hx
  refine ⟨t', x', ?_, ht', hx'⟩
  rw [Routine.attempt, Dialogue.run_bind, hrun]
  rfl

/-! ## What a success leaves -/

/-- If the job succeeds on a board like this, it leaves a board of which this holds. -/
def Ensures (r : Job σ ε α) (s : σ) (b : SimulatedBoard) (after : SimulatedBoard → Prop) : Prop :=
  ∃ out s' b', r.Yields s b out s' b' ∧ ∀ a, out = .ok a → after b'

namespace Ensures

variable {after after' : SimulatedBoard → Prop}

theorem of_failed {e : ε} (h : r.Yields s b (.failed e) s' b') : r.Ensures s b after :=
  ⟨_, s', b', h, nofun⟩

theorem of_yields {a : α} (h : r.Yields s b (.ok a) s' b') (hafter : after b') :
    r.Ensures s b after :=
  ⟨_, s', b', h, fun _ _ => hafter⟩

theorem of_bind {a : α} (h : r.Yields s b (.ok a) s' b') (hf : (f a).Ensures s' b' after) :
    (r >>= f).Ensures s b after := by
  obtain ⟨out, s'', b'', hyields, hafter⟩ := hf
  exact ⟨out, s'', b'', h.bind hyields, hafter⟩

theorem mono (h : r.Ensures s b after) (hafter : ∀ x, after x → after' x) :
    r.Ensures s b after' := by
  obtain ⟨out, s', b', hyields, hholds⟩ := h
  exact ⟨out, s', b', hyields, fun a ha => hafter b' (hholds a ha)⟩

end Ensures

/-! ## Success or one failure -/

/-- The job fails with the error, if there is one; otherwise it succeeds and leaves this state and
this board. -/
structure Meets (r : Job σ ε Unit) (error? : Option ε) (s : σ) (b : SimulatedBoard) (s' : σ)
    (b' : SimulatedBoard) : Prop where
  yields : error? = none → r.Yields s b (.ok ()) s' b'
  fails : ∀ e, error? = some e → r.Fails s b e

/-- The job succeeds, and leaves this state and this board, exactly if the condition holds. -/
structure HingesOn (r : Job σ ε Unit) (p : Prop) (s : σ) (b : SimulatedBoard) (s' : σ)
    (b' : SimulatedBoard) : Prop where
  yields : p → r.Yields s b (.ok ()) s' b'
  fails : ¬p → ∃ e, r.Fails s b e

namespace Meets

variable {p : Prop} {e : ε} {error? error?' : Option ε} {d : Job σ ε Unit} {g : Unit → Job σ ε Unit}

theorem of_yields (h : d.Yields s b (.ok ()) s' b') : d.Meets none s b s' b' :=
  ⟨fun _ => h, nofun⟩

theorem ite [Decidable p] (hfails : p → d.Fails s b e) (h : ¬p → d.Meets error? s b s' b') :
    d.Meets (if p then some e else error?) s b s' b' := by
  split
  next hp =>
    refine ⟨nofun, fun e' he' => ?_⟩
    obtain rfl := Option.some.inj he'
    exact hfails hp
  next hp => exact h hp

theorem bind (h : d.Meets error? s b s' b')
    (hg : error? = none → (g ()).Meets error?' s' b' s'' b'') :
    (d >>= g).Meets (error?.or error?') s b s'' b'' := by
  cases herror : error? with
  | none =>
      rw [Option.none_or]
      constructor
      · exact fun hnone => (h.yields herror).bind ((hg herror).yields hnone)
      · exact fun e he => (h.yields herror).bind_fails ((hg herror).fails e he)
  | some e =>
      rw [Option.some_or]
      refine ⟨nofun, fun e' he' => ?_⟩
      obtain rfl := Option.some.inj he'
      exact (h.fails e herror).bind

theorem of_bind (h : d.Yields s b (.ok ()) s' b') (hg : (g ()).Meets error? s' b' s'' b'') :
    (d >>= g).Meets error? s b s'' b'' :=
  ⟨fun hnone => h.bind (hg.yields hnone), fun e he => h.bind_fails (hg.fails e he)⟩

theorem hingesOn (h : d.Meets error? s b s' b') (hp : error? = none ↔ p) :
    d.HingesOn p s b s' b' := by
  refine ⟨fun hholds => h.yields (hp.mpr hholds), fun hnot => ?_⟩
  obtain ⟨e, he⟩ := Option.ne_none_iff_exists'.mp (mt hp.mp hnot)
  exact ⟨e, h.fails e he⟩

end Meets
end Routine
end Reflash
