import Reflash.Bus
import Reflash.Proofs.Routine
/-!
# Bus cycles of a run

The bus cycles among the turns of a run, and how a routine can end after given cycles. `Ends` has a
rule for each way to build a routine. `recorder` lists the cycles of the run that a bus picks.
-/

namespace Reflash

def cyclesOf (turns : List (Turn engine)) : List Access :=
  turns.filterMap fun turn => Access.of? turn.1 turn.2

theorem cyclesOf_nil : cyclesOf [] = [] := rfl

theorem cyclesOf_cons (r : Request) (answer : r.Answer) (turns : List (Turn engine)) :
    cyclesOf (⟨r, answer⟩ :: turns) = (Access.of? r answer).toList ++ cyclesOf turns := by
  rw [cyclesOf, List.filterMap_cons]
  cases Access.of? r answer <;> rfl

theorem cyclesOf_append (before after : List (Turn engine)) :
    cyclesOf (before ++ after) = cyclesOf before ++ cyclesOf after :=
  List.filterMap_append

def Access.address : Access → UInt32
  | read address _ | write address _ | probe address _ => address

def Request.address? : Request → Option UInt32
  | read address | write address _ | probe address => some address
  | pause _ | tick | remark _ | report _ => none

theorem Request.address?_eq_of_of? {r : Request} {answer : r.Answer} {cycle : Access}
    (h : Access.of? r answer = some cycle) : r.address? = some cycle.address := by
  cases r with
  | read | write | probe =>
      cases h
      rfl
  | pause | tick | remark | report => cases h

def Request.IsSilent : Request → Prop
  | .read _ | .write _ _ | .probe _ => False
  | .pause _ | .tick | .remark _ | .report _ => True

def Request.IsLook : Request → Prop
  | .write _ _ => False
  | .read _ | .probe _ | .pause _ | .tick | .remark _ | .report _ => True

theorem Request.IsSilent.isLook {r : Request} (h : r.IsSilent) : r.IsLook := by
  cases r with
  | read | write | probe => exact h.elim
  | pause | tick | remark | report => trivial

theorem Request.IsSilent.of?_eq_none {r : Request} (h : r.IsSilent) (answer : r.Answer) :
    Access.of? r answer = none := by
  cases r with
  | read | write | probe => exact h.elim
  | pause | tick | remark | report => rfl

def Exchange.IsSilent {α : Type} (d : Exchange α) : Prop :=
  d.Keeps Request.IsSilent fun _ => True

namespace Exchange

theorem isSilent_silent : silent.IsSilent := trivial

theorem isSilent_tick : tick.IsSilent := ⟨trivial, fun _ => trivial⟩

theorem isSilent_report (e : Event) : (report e).IsSilent := ⟨trivial, fun _ => trivial⟩

theorem isSilent_reportAll (events : List Event) : (reportAll events).IsSilent := by
  induction events with
  | nil => trivial
  | cons e rest ih => exact ⟨trivial, fun _ => ih⟩

theorem IsSilent.cyclesOf_eq_nil {α : Type} {d : Exchange α} (h : d.IsSilent)
    {turns : List (Turn engine)} {a : α} (hplays : d.Plays turns a) : cyclesOf turns = [] := by
  have hturns := (h.of_plays hplays).1
  apply List.filterMap_eq_nil_iff.mpr
  intro turn hturn
  exact (hturns turn hturn).of?_eq_none turn.2

end Exchange

/-! ## How a routine ends after some cycles -/

namespace Routine

variable {σ τ ε ε' α β : Type} {s s' : σ} {cycles : List Access}

/-- From state `s` the routine can make exactly these bus cycles, end in `out` and leave `s'`. -/
def Ends (r : Routine engine σ ε α) (s : σ) (cycles : List Access) (out : Outcome ε α) (s' : σ) :
    Prop :=
  ∃ turns, (r s).Plays turns (out, s') ∧ cyclesOf turns = cycles

theorem ends_of_done {r : Routine engine σ ε α} {out' : Outcome ε α} {s₀ : σ}
    {out : Outcome ε α} (hr : r s = .done (out', s₀)) :
    r.Ends s cycles out s' ↔ cycles = [] ∧ out = out' ∧ s' = s₀ := by
  rw [Ends, hr]
  constructor
  · rintro ⟨turns, hplays, rfl⟩
    obtain ⟨rfl, hout⟩ := Dialogue.plays_done.mp hplays
    obtain ⟨rfl, rfl⟩ := Prod.mk.injEq .. ▸ hout
    exact ⟨rfl, rfl, rfl⟩
  · rintro ⟨rfl, rfl, rfl⟩
    exact ⟨[], .done _, rfl⟩

theorem ends_pure {a : α} {out : Outcome ε α} :
    (pure a : Routine engine σ ε α).Ends s cycles out s' ↔
      cycles = [] ∧ out = .ok a ∧ s' = s :=
  ends_of_done rfl

theorem ends_fail {e : ε} {out : Outcome ε α} :
    (fail e : Routine engine σ ε α).Ends s cycles out s' ↔
      cycles = [] ∧ out = .failed e ∧ s' = s :=
  ends_of_done rfl

theorem ends_modify {f : σ → σ} {out : Outcome ε Unit} :
    (modify f : Routine engine σ ε Unit).Ends s cycles out s' ↔
      cycles = [] ∧ out = .ok () ∧ s' = f s :=
  ends_of_done rfl

theorem ends_of_bind {d : Dialogue engine α} {f : α → Dialogue engine (Outcome ε β × σ)}
    {out : Outcome ε β} :
    (∃ turns, (d.bind f).Plays turns (out, s') ∧ cyclesOf turns = cycles) ↔
      ∃ before a after, cycles = cyclesOf before ++ cyclesOf after ∧ d.Plays before a ∧
        (f a).Plays after (out, s') := by
  constructor
  · rintro ⟨turns, hplays, rfl⟩
    obtain ⟨before, a, after, rfl, ha, hf⟩ := Dialogue.plays_bind.mp hplays
    exact ⟨before, a, after, cyclesOf_append before after, ha, hf⟩
  · rintro ⟨before, a, after, rfl, ha, hf⟩
    refine ⟨before ++ after, ?_, cyclesOf_append before after⟩
    exact Dialogue.plays_bind.mpr ⟨before, a, after, rfl, ha, hf⟩

/-- A routine of two parts ends after both, or as soon as the first one stops. -/
theorem ends_bind {r : Routine engine σ ε α} {f : α → Routine engine σ ε β}
    {out : Outcome ε β} :
    (r >>= f).Ends s cycles out s' ↔
      (∃ before a s₁ after, cycles = before ++ after ∧ r.Ends s before (.ok a) s₁ ∧
        (f a).Ends s₁ after out s') ∨
      (∃ e, out = .failed e ∧ r.Ends s cycles (.failed e) s') ∨
      (out = .offBus ∧ r.Ends s cycles .offBus s') := by
  rw [bind_eq, Ends, Routine.bind, ends_of_bind]
  constructor
  · rintro ⟨before, ⟨out₁, s₁⟩, after, rfl, hr, hf⟩
    cases out₁ with
    | ok a => exact .inl ⟨_, a, s₁, _, rfl, ⟨before, hr, rfl⟩, ⟨after, hf, rfl⟩⟩
    | failed e =>
        obtain ⟨rfl, hout⟩ := Dialogue.plays_done.mp hf
        obtain ⟨rfl, rfl⟩ := Prod.mk.injEq .. ▸ hout
        exact .inr (.inl ⟨e, rfl, before, hr, by simp [cyclesOf_nil]⟩)
    | offBus =>
        obtain ⟨rfl, hout⟩ := Dialogue.plays_done.mp hf
        obtain ⟨rfl, rfl⟩ := Prod.mk.injEq .. ▸ hout
        exact .inr (.inr ⟨rfl, before, hr, by simp [cyclesOf_nil]⟩)
  · rintro (⟨_, a, s₁, _, rfl, ⟨before, hr, rfl⟩, ⟨after, hf, rfl⟩⟩ | ⟨e, rfl, turns, hr, rfl⟩ |
      ⟨rfl, turns, hr, rfl⟩)
    · exact ⟨before, _, after, rfl, hr, hf⟩
    · exact ⟨turns, _, [], by simp [cyclesOf_nil], hr, .done _⟩
    · exact ⟨turns, _, [], by simp [cyclesOf_nil], hr, .done _⟩

theorem ends_bind_ok {r : Routine engine σ ε α} {f : α → Routine engine σ ε β} {b : β} :
    (r >>= f).Ends s cycles (.ok b) s' ↔
      ∃ before a s₁ after, cycles = before ++ after ∧ r.Ends s before (.ok a) s₁ ∧
        (f a).Ends s₁ after (.ok b) s' := by
  rw [ends_bind]
  simp

theorem ends_get_bind {f : σ → Routine engine σ ε β} {out : Outcome ε β} :
    (get >>= f).Ends s cycles out s' ↔ (f s).Ends s cycles out s' := Iff.rfl

theorem ends_modify_bind {g : σ → σ} {f : Unit → Routine engine σ ε β} {out : Outcome ε β} :
    (modify g >>= f).Ends s cycles out s' ↔ (f ()).Ends (g s) cycles out s' := Iff.rfl

theorem ends_lift {d : Exchange α} (hd : d.IsSilent) {out : Outcome ε α}
    (h : (lift d : Routine engine σ ε α).Ends s cycles out s') :
    cycles = [] ∧ (∃ a, out = .ok a) ∧ s' = s := by
  obtain ⟨before, a, after, rfl, hplays, hdone⟩ := ends_of_bind.mp h
  obtain ⟨rfl, hout⟩ := Dialogue.plays_done.mp hdone
  obtain ⟨rfl, rfl⟩ := Prod.mk.injEq .. ▸ hout
  exact ⟨by simp [hd.cyclesOf_eq_nil hplays, cyclesOf_nil], ⟨a, rfl⟩, rfl⟩

theorem ends_lift_bind {d : Exchange Unit} (hd : d.IsSilent) {f : Unit → Routine engine σ ε β}
    {out : Outcome ε β} (h : (lift d >>= f).Ends s cycles out s') :
    (f ()).Ends s cycles out s' := by
  obtain ⟨before, a, s₁, after, rfl, hlift, hf⟩ | ⟨e, -, hlift⟩ | ⟨-, hlift⟩ := ends_bind.mp h
  · obtain ⟨rfl, -, rfl⟩ := ends_lift hd hlift
    exact hf
  · obtain ⟨-, ⟨a, habsurd⟩, -⟩ := ends_lift hd hlift
    cases habsurd
  · obtain ⟨-, ⟨a, habsurd⟩, -⟩ := ends_lift hd hlift
    cases habsurd

theorem ends_within {part : τ → σ} {update : τ → σ → τ} {r : Routine engine σ ε α} {t t' : τ}
    {out : Outcome ε α} :
    (r.within part update).Ends t cycles out t' ↔
      ∃ s', r.Ends (part t) cycles out s' ∧ t' = update t s' := by
  rw [Ends, within, ends_of_bind]
  constructor
  · rintro ⟨before, ⟨out₁, s₁⟩, after, rfl, hr, hdone⟩
    obtain ⟨rfl, hout⟩ := Dialogue.plays_done.mp hdone
    obtain ⟨rfl, rfl⟩ := Prod.mk.injEq .. ▸ hout
    exact ⟨s₁, ⟨before, hr, by simp [cyclesOf_nil]⟩, rfl⟩
  · rintro ⟨s₁, ⟨turns, hr, rfl⟩, rfl⟩
    exact ⟨turns, _, [], by simp [cyclesOf_nil], hr, .done _⟩

theorem ends_attempt {r : Routine engine σ ε α} {out : Outcome ε' (Except ε α)} :
    r.attempt.Ends s cycles out s' ↔
      (∃ a, out = .ok (.ok a) ∧ r.Ends s cycles (.ok a) s') ∨
      (∃ e, out = .ok (.error e) ∧ r.Ends s cycles (.failed e) s') ∨
      (out = .offBus ∧ r.Ends s cycles .offBus s') := by
  rw [Ends, attempt, ends_of_bind]
  constructor
  · rintro ⟨before, ⟨out₁, s₁⟩, after, rfl, hr, hf⟩
    cases out₁ with
    | ok a =>
        obtain ⟨rfl, hout⟩ := Dialogue.plays_done.mp hf
        obtain ⟨rfl, rfl⟩ := Prod.mk.injEq .. ▸ hout
        exact .inl ⟨a, rfl, before, hr, by simp [cyclesOf_nil]⟩
    | failed e =>
        obtain ⟨rfl, hout⟩ := Dialogue.plays_done.mp hf
        obtain ⟨rfl, rfl⟩ := Prod.mk.injEq .. ▸ hout
        exact .inr (.inl ⟨e, rfl, before, hr, by simp [cyclesOf_nil]⟩)
    | offBus =>
        obtain ⟨rfl, hout⟩ := Dialogue.plays_done.mp hf
        obtain ⟨rfl, rfl⟩ := Prod.mk.injEq .. ▸ hout
        exact .inr (.inr ⟨rfl, before, hr, by simp [cyclesOf_nil]⟩)
  · rintro (⟨a, rfl, turns, hr, rfl⟩ | ⟨e, rfl, turns, hr, rfl⟩ | ⟨rfl, turns, hr, rfl⟩)
    · exact ⟨turns, _, [], by simp [cyclesOf_nil], hr, .done _⟩
    · exact ⟨turns, _, [], by simp [cyclesOf_nil], hr, .done _⟩
    · exact ⟨turns, _, [], by simp [cyclesOf_nil], hr, .done _⟩

theorem ends_on {r : Routine engine τ ε α} {t : τ} {out : Outcome ε' (Except ε α × τ)}
    (h : (r.on t : Routine engine σ ε' (Except ε α × τ)).Ends s cycles out s') :
    s' = s ∧ ((∃ a t', out = .ok (.ok a, t') ∧ r.Ends t cycles (.ok a) t') ∨
      (∃ e t', out = .ok (.error e, t') ∧ r.Ends t cycles (.failed e) t') ∨
      (out = .offBus ∧ ∃ t', r.Ends t cycles .offBus t')) := by
  rw [Ends, on, ends_of_bind] at h
  rcases h with ⟨before, ⟨out₁, t₁⟩, after, rfl, hr, hdone⟩
  have hends : ∀ {last : Outcome ε' (Except ε α × τ)},
      (Dialogue.done (last, s) : Dialogue engine _).Plays after (out, s') →
        s' = s ∧ out = last ∧ r.Ends t (cyclesOf before ++ cyclesOf after) out₁ t₁ := by
    intro last hlast
    rcases Dialogue.plays_done.mp hlast with ⟨rfl, hout⟩
    rcases Prod.mk.injEq .. ▸ hout with ⟨rfl, rfl⟩
    exact ⟨rfl, rfl, before, hr, by simp [cyclesOf_nil]⟩
  cases out₁ with
  | ok a =>
      rcases hends hdone with ⟨hs, hout, hr'⟩
      exact ⟨hs, .inl ⟨a, t₁, hout, hr'⟩⟩
  | failed e =>
      rcases hends hdone with ⟨hs, hout, hr'⟩
      exact ⟨hs, .inr (.inl ⟨e, t₁, hout, hr'⟩)⟩
  | offBus =>
      rcases hends hdone with ⟨hs, hout, hr'⟩
      exact ⟨hs, .inr (.inr ⟨hout, t₁, hr'⟩)⟩

theorem Keeps.of_ends {allowed : Request → Prop} {holds : σ → Prop} {r : Routine engine σ ε α}
    {out : Outcome ε α} (hr : r.Keeps allowed holds) (hs : holds s)
    (h : r.Ends s cycles out s') : holds s' ∧ out ≠ .offBus := by
  obtain ⟨turns, hplays, -⟩ := h
  exact ((hr s hs).of_plays hplays).2

theorem Confines.of_ends {holds : σ → Prop} {causes : ε → Prop} {r : Routine engine σ ε α}
    {out : Outcome ε α} (hr : r.Confines holds causes) (hs : holds s)
    (h : r.Ends s cycles out s') : holds s' ∧ ∀ e, out = .failed e → causes e := by
  rcases h with ⟨turns, hplays, -⟩
  exact ((hr s hs).of_plays hplays).2

theorem Keeps.mem_cycles {allowed : Request → Prop} {holds : σ → Prop}
    {r : Routine engine σ ε α} {out : Outcome ε α} (hr : r.Keeps allowed holds) (hs : holds s)
    (h : r.Ends s cycles out s') {cycle : Access} (hcycle : cycle ∈ cycles) :
    ∃ (request : Request) (answer : request.Answer),
      allowed request ∧ Access.of? request answer = some cycle := by
  obtain ⟨turns, hplays, rfl⟩ := h
  obtain ⟨turn, hturn, hof⟩ := List.mem_filterMap.mp hcycle
  exact ⟨turn.1, turn.2, ((hr s hs).of_plays hplays).1 turn hturn, hof⟩

end Routine

namespace Job

variable {σ ε : Type} {s s' : σ} {cycles : List Access}

theorem ends_ask {r : Request} {out : Outcome ε r.Answer} :
    (ask r : Job σ ε r.Answer).Ends s cycles out s' ↔
      ∃ answer, cycles = (Access.of? r answer).toList ∧ out = .ok answer ∧ s' = s := by
  constructor
  · rintro ⟨turns, hplays, rfl⟩
    obtain ⟨answer, rest, rfl, hdone⟩ := Dialogue.plays_ask.mp hplays
    obtain ⟨rfl, hout⟩ := Dialogue.plays_done.mp hdone
    obtain ⟨rfl, rfl⟩ := Prod.mk.injEq .. ▸ hout
    exact ⟨answer, by rw [cyclesOf_cons, cyclesOf_nil, List.append_nil], rfl, rfl⟩
  · rintro ⟨answer, rfl, rfl, rfl⟩
    refine ⟨[⟨r, answer⟩], Dialogue.plays_ask.mpr ⟨answer, [], rfl, .done _⟩, ?_⟩
    rw [cyclesOf_cons, cyclesOf_nil, List.append_nil]

theorem ends_ask_bind {r : Request} {β : Type} {f : r.Answer → Job σ ε β} {out : Outcome ε β}
    (h : (ask r >>= f : Job σ ε β).Ends s cycles out s') :
    ∃ answer after, cycles = (Access.of? r answer).toList ++ after ∧
      (f answer).Ends s after out s' := by
  obtain ⟨before, a, s₁, after, rfl, hask, hf⟩ | ⟨e, -, hask⟩ | ⟨-, hask⟩ :=
    Routine.ends_bind.mp h
  · obtain ⟨answer, rfl, hanswer, rfl⟩ := ends_ask.mp hask
    obtain rfl : a = answer := by simpa using hanswer
    exact ⟨a, after, rfl, hf⟩
  · obtain ⟨_, -, habsurd, -⟩ := ends_ask.mp hask
    cases habsurd
  · obtain ⟨_, -, habsurd, -⟩ := ends_ask.mp hask
    cases habsurd

theorem ends_remark {r : Remark} {out : Outcome ε Unit}
    (h : (remark r : Job σ ε Unit).Ends s cycles out s') :
    cycles = [] ∧ out = .ok () ∧ s' = s := by
  obtain ⟨answer, rfl, rfl, rfl⟩ := ends_ask.mp h
  exact ⟨rfl, rfl, rfl⟩

theorem ends_remark_bind {r : Remark} {β : Type} {f : Unit → Job σ ε β} {out : Outcome ε β}
    (h : (remark r >>= f : Job σ ε β).Ends s cycles out s') :
    (f ()).Ends s cycles out s' :=
  Routine.ends_lift_bind (d := .ask (.remark r) .done) ⟨trivial, fun _ => trivial⟩ h

theorem ends_pause_bind {milliseconds : Nat} {β : Type} {f : Unit → Job σ ε β}
    {out : Outcome ε β} (h : (pause milliseconds >>= f : Job σ ε β).Ends s cycles out s') :
    (f ()).Ends s cycles out s' := by
  rw [pause] at h
  split at h
  · rwa [pure_bind] at h
  · exact Routine.ends_lift_bind (d := .ask (.pause milliseconds) .done)
      ⟨trivial, fun _ => trivial⟩ h

end Job

/-! ## Recording -/

section Recorder

variable {σ α ε τ : Type} [Bus σ]

def Bus.recorder : Handler engine (σ × List Access) :=
  Bus.handler.observed fun _ r answer cycles => cycles ++ (Access.of? r answer).toList

/-- Recording does not disturb, and what is recorded are the cycles of the run that is made. -/
theorem Bus.run_recorder (d : Exchange α) (s : σ) (before : List Access) :
    ∃ turns, d.Plays turns (d.run Bus.handler s).1 ∧
      d.run Bus.recorder (s, before) =
        ((d.run Bus.handler s).1, (d.run Bus.handler s).2, before ++ cyclesOf turns) := by
  induction d generalizing s before with
  | done a => exact ⟨[], .done a, by simp [Dialogue.run, cyclesOf_nil]⟩
  | ask r next ih =>
      obtain ⟨turns, hplays, hrun⟩ := ih (Bus.handler r s).1 (Bus.handler r s).2
        (before ++ (Access.of? r (Bus.handler r s).1).toList)
      refine ⟨⟨r, (Bus.handler r s).1⟩ :: turns, .ask _ hplays, ?_⟩
      rw [cyclesOf_cons, ← List.append_assoc]
      exact hrun

def Exchange.cycles (d : Exchange α) (s : σ) : List Access := (d.run Bus.recorder (s, [])).2.2

/-- A routine that runs on a bus ends as its run does, after the cycles on that bus. -/
theorem Routine.ends_run (r : Routine engine τ ε α) (t : τ) (s : σ) :
    r.Ends t (Exchange.cycles (r t) s) ((r t).run Bus.handler s).1.1
      ((r t).run Bus.handler s).1.2 := by
  obtain ⟨turns, hplays, hrun⟩ := Bus.run_recorder (r t) s []
  refine ⟨turns, hplays, ?_⟩
  rw [Exchange.cycles, hrun, List.nil_append]

end Recorder

/-- A bus on which everything answers, and always with the same word. -/
structure SteadyBus where
  word : UInt32

instance : Bus SteadyBus where
  read s _ := (s.word, s)
  write s _ _ := s
  probe s _ := (true, s)

structure FixedBus where
  word : UInt32 → UInt32

instance : Bus FixedBus where
  read s address := (s.word address, s)
  write s _ _ := s
  probe s _ := (true, s)

/-- A bus on which everything answers, with one word for so many reads and then with another. -/
structure LateBus where
  left : Nat
  early : UInt32
  late : UInt32
  deriving DecidableEq

instance : Bus LateBus where
  read s _ :=
    match s.left with
    | 0 => (s.late, s)
    | left + 1 => (s.early, { s with left })
  write s _ _ := s
  probe s _ := (true, s)

end Reflash
