import Reflash.Dialogue
/-!
# Runs of dialogues

How a dialogue can go: the turns that it takes, each a request with the answer to it, and the
result that it ends with. A handler picks one of these runs, so what holds of all of them holds on
any hardware. `Keeps` is the part of this that needs no turns: which requests can be asked at all,
and what is promised of the result.
-/

namespace Reflash

abbrev Turn (I : Interface) : Type := (r : I.Request) × I.Answer r

namespace Dialogue

variable {I : Interface} {σ α β : Type}

/-- The dialogue can take these turns and end with this result. -/
inductive Plays : Dialogue I α → List (Turn I) → α → Prop where
  | done (a : α) : Plays (done a) [] a
  | ask {r : I.Request} {next : I.Answer r → Dialogue I α} {turns : List (Turn I)} {a : α}
      (answer : I.Answer r) (rest : Plays (next answer) turns a) :
      Plays (ask r next) (⟨r, answer⟩ :: turns) a

/-- Whatever the answers, only allowed requests are asked, and the result is as promised. -/
def Keeps (allowed : I.Request → Prop) (promised : α → Prop) : Dialogue I α → Prop
  | done a => promised a
  | ask r next => allowed r ∧ ∀ answer, (next answer).Keeps allowed promised

theorem plays_done {a b : α} {turns : List (Turn I)} :
    (done a : Dialogue I α).Plays turns b ↔ turns = [] ∧ b = a := by
  constructor
  · intro h
    cases h
    exact ⟨rfl, rfl⟩
  · rintro ⟨rfl, rfl⟩
    exact .done b

theorem plays_ask {r : I.Request} {next : I.Answer r → Dialogue I α} {turns : List (Turn I)}
    {a : α} :
    (ask r next).Plays turns a ↔
      ∃ answer rest, turns = ⟨r, answer⟩ :: rest ∧ (next answer).Plays rest a := by
  constructor
  · intro h
    cases h with
    | ask answer rest => exact ⟨answer, _, rfl, rest⟩
  · rintro ⟨answer, rest, rfl, h⟩
    exact .ask answer h

theorem plays_bind {d : Dialogue I α} {f : α → Dialogue I β} {turns : List (Turn I)} {b : β} :
    (d.bind f).Plays turns b ↔
      ∃ before a after, turns = before ++ after ∧ d.Plays before a ∧ (f a).Plays after b := by
  induction d generalizing turns with
  | done a =>
      constructor
      · intro h
        exact ⟨[], a, turns, rfl, .done a, h⟩
      · rintro ⟨before, a', after, rfl, ha, hf⟩
        obtain ⟨rfl, rfl⟩ := plays_done.mp ha
        exact hf
  | ask r next ih =>
      constructor
      · intro h
        obtain ⟨answer, rest, rfl, hrest⟩ := plays_ask.mp h
        obtain ⟨before, a, after, rfl, ha, hf⟩ := (ih answer).mp hrest
        exact ⟨⟨r, answer⟩ :: before, a, after, rfl, .ask answer ha, hf⟩
      · rintro ⟨before, a, after, rfl, ha, hf⟩
        obtain ⟨answer, rest, rfl, hrest⟩ := plays_ask.mp ha
        exact .ask answer ((ih answer).mpr ⟨rest, a, after, rfl, hrest, hf⟩)

def turns (h : Handler I σ) : Dialogue I α → σ → List (Turn I)
  | done _, _ => []
  | ask r next, s =>
    let (answer, s) := h r s
    ⟨r, answer⟩ :: (next answer).turns h s

/-- A handler picks a run: what it gives back is the result of the turns that it takes. -/
theorem plays_turns (h : Handler I σ) (d : Dialogue I α) (s : σ) :
    d.Plays (d.turns h s) (d.run h s).1 := by
  induction d generalizing s with
  | done a => exact .done a
  | ask r next ih => exact .ask _ (ih _ _)

theorem exists_plays_run (h : Handler I σ) (d : Dialogue I α) (s : σ) :
    ∃ turns, d.Plays turns (d.run h s).1 :=
  ⟨d.turns h s, plays_turns h d s⟩

/-- What no turn of a run takes away from the world, the run does not take away either. -/
theorem run_preserves {d : Dialogue I α} {h : Handler I σ} {allowed : I.Request → Prop}
    (holds : σ → Prop) (hstep : ∀ r s, allowed r → holds s → holds (h r s).2) {s : σ}
    (hturns : ∀ turn ∈ d.turns h s, allowed turn.1) (hs : holds s) : holds (d.run h s).2 := by
  induction d generalizing s with
  | done a => exact hs
  | ask r next ih =>
      obtain ⟨hr, hrest⟩ := List.forall_mem_cons.mp hturns
      exact ih _ hrest (hstep r s hr hs)

section Keeps

variable {allowed allowed' : I.Request → Prop} {promised promised' : α → Prop}

theorem Keeps.mono {d : Dialogue I α} (h : d.Keeps allowed promised)
    (hasked : ∀ r, allowed r → allowed' r) (hresult : ∀ a, promised a → promised' a) :
    d.Keeps allowed' promised' := by
  induction d with
  | done a => exact hresult a h
  | ask r next ih => exact ⟨hasked r h.1, fun answer => ih answer (h.2 answer)⟩

theorem keeps_true (d : Dialogue I α) : d.Keeps (fun _ => True) fun _ => True := by
  induction d with
  | done a => trivial
  | ask r next ih => exact ⟨trivial, ih⟩

theorem Keeps.bind {d : Dialogue I α} {f : α → Dialogue I β} {ended : β → Prop}
    (h : d.Keeps allowed promised) (hf : ∀ a, promised a → (f a).Keeps allowed ended) :
    (d.bind f).Keeps allowed ended := by
  induction d with
  | done a => exact hf a h
  | ask r next ih => exact ⟨h.1, fun answer => ih answer (h.2 answer)⟩

theorem Keeps.of_plays {d : Dialogue I α} {turns : List (Turn I)} {a : α}
    (h : d.Keeps allowed promised) (hplays : d.Plays turns a) :
    (∀ turn ∈ turns, allowed turn.1) ∧ promised a := by
  induction hplays with
  | done a => exact ⟨by simp, h⟩
  | ask answer rest ih =>
      obtain ⟨hturns, ha⟩ := ih (h.2 answer)
      exact ⟨by simpa using ⟨h.1, hturns⟩, ha⟩

theorem Keeps.run_preserves {d : Dialogue I α} (h : d.Keeps allowed promised)
    {handler : Handler I σ} (holds : σ → Prop)
    (hstep : ∀ r s, allowed r → holds s → holds (handler r s).2) {s : σ} (hs : holds s) :
    holds (d.run handler s).2 :=
  Dialogue.run_preserves holds hstep (h.of_plays (plays_turns handler d s)).1 hs

theorem Keeps.run {d : Dialogue I α} (h : d.Keeps allowed promised) (handler : Handler I σ)
    (s : σ) : promised (d.run handler s).1 := by
  obtain ⟨turns, hturns⟩ := exists_plays_run handler d s
  exact (h.of_plays hturns).2

end Keeps

end Dialogue
end Reflash
