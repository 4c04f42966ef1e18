import Reflash.Host.Tool
import Reflash.Proofs.Bus.Trace
import Reflash.Proofs.Heeding
/-!
# Turns of a run

What the update engine asks for inside a run are turns of the run like any other. So what holds of
a job by its own turns holds of the run by those of its turns that are the engine's. `Asks` tells
what a run asks for at all, and what is known before such a run is known after it, unless it asks
for something that matters.
-/

namespace Reflash

theorem Dialogue.Keeps.embed {I J : Interface} {α : Type} {permits : I.Request → Prop}
    {permits' : J.Request → Prop} {holds : α → Prop} {wider : I.Request → J.Request}
    {answer : (r : I.Request) → J.Answer (wider r) → I.Answer r} {d : Dialogue I α}
    (h : d.Keeps permits holds) (hwider : ∀ r, permits r → permits' (wider r)) :
    (d.embed wider answer).Keeps permits' holds := by
  induction d with
  | done a => exact h
  | ask r next ih => exact ⟨hwider r h.1, fun _ => ih _ (h.2 _)⟩

namespace Host

def engineTurns (turns : List (Turn workstation)) : List (Turn engine) :=
  turns.filterMap fun
    | ⟨.engine r, answer⟩ => some ⟨r, answer⟩
    | _ => none

theorem engineTurns_append (past more : List (Turn workstation)) :
    engineTurns (past ++ more) = engineTurns past ++ engineTurns more :=
  List.filterMap_append

theorem mem_of_write_mem {turns : List (Turn workstation)} {address value : UInt32}
    (h : .write address value ∈ cyclesOf (engineTurns turns)) :
    ⟨.engine (.write address value), ()⟩ ∈ turns := by
  obtain ⟨⟨r, answer⟩, hturn, hof⟩ := List.mem_filterMap.mp h
  obtain ⟨⟨request, answer'⟩, hmem, heq⟩ := List.mem_filterMap.mp hturn
  cases request with
  | engine r' =>
      cases heq
      cases r with
      | write a v =>
          cases hof
          exact hmem
      | read | probe | pause | tick | remark | report => cases hof
  | _ => cases heq

namespace Run

variable {σ ε α β : Type} {permits : ToolRequest → Prop}
  {allowed : List (Turn workstation) → ToolRequest → Prop}

/-! ## What a run asks for -/

def Asks (permits : ToolRequest → Prop) (r : Run α) : Prop := (r ()).Keeps permits fun _ => True

theorem asks_pure (a : α) : Asks permits (pure a) := trivial

theorem asks_ofExcept (result : Except RunError α) : Asks permits (Routine.ofExcept result) := by
  cases result <;> trivial

theorem asks_ask {r : ToolRequest} (hr : permits r) : Asks permits (ask r) :=
  ⟨hr, fun _ => trivial⟩

theorem Asks.bind {r : Run α} {f : α → Run β} (hr : Asks permits r)
    (hf : ∀ a, Asks permits (f a)) : Asks permits (r >>= f) := by
  refine Dialogue.Keeps.bind hr ?_
  rintro ⟨out, _⟩ -
  cases out with
  | ok a => exact hf a
  | failed | offBus => trivial

theorem asks_engine {job : Job σ ε α} {s : σ} {engines : Request → Prop}
    {holds : Outcome ε α × σ → Prop} (h : (job s).Keeps engines holds)
    (hengine : ∀ r, engines r → permits (.engine r)) : Asks permits (engine job s) := by
  refine Dialogue.Keeps.bind (h.embed hengine) ?_
  rintro ⟨out, _⟩ -
  cases out with
  | ok | failed | offBus => trivial

theorem asks_must {wrap : ε → RunError} {job : Job σ ε α} {s : σ} {engines : Request → Prop}
    {holds : Outcome ε α × σ → Prop} (h : (job s).Keeps engines holds)
    (hengine : ∀ r, engines r → permits (.engine r)) : Asks permits (must wrap job s) :=
  .bind (asks_engine h hengine) fun _ => .bind (asks_ofExcept _) fun _ => asks_pure _

theorem asks_always {job : Job Unit Empty α} {engines : Request → Prop}
    {holds : Outcome Empty α × Unit → Prop} (h : (job ()).Keeps engines holds)
    (hengine : ∀ r, engines r → permits (.engine r)) : Asks permits (always job) :=
  .bind (asks_must h hengine) fun _ => asks_pure _

theorem heeds_ask {r : ToolRequest} {before : List (Turn workstation) → Unit → Prop}
    {after : r.Answer → List (Turn workstation) → Unit → Prop}
    (hr : ∀ past s, before past s → allowed past r)
    (hafter : ∀ past s answer, before past s → after answer (past ++ [⟨r, answer⟩]) s) :
    (ask r).Heeds allowed before after :=
  .request hr hafter

theorem heeds_ofExcept {ε α : Type} {result : Except ε α} {wrap : ε → RunError}
    {before : List (Turn workstation) → Unit → Prop} :
    (Routine.ofExcept (result.mapError wrap) : Run α).Heeds allowed before fun a past s =>
      before past s ∧ result = .ok a := by
  cases result with
  | ok a => exact .pure fun _ _ h => ⟨h, rfl⟩
  | error e => exact .fail (wrap e)

theorem Asks.heeds {r : Run α} {known : List (Turn workstation) → Prop} (h : Asks permits r)
    (hallowed : ∀ past r, known past → permits r → allowed past r)
    (hknown : ∀ past r answer, known past → permits r → known (past ++ [⟨r, answer⟩])) :
    r.Heeds allowed (fun past _ => known past) fun _ past _ => known past :=
  fun _ _ hpast => (Dialogue.Keeps.heeds h hallowed hknown hpast).mono (fun _ _ => id)
    fun _ _ hresult _ _ => hresult.1

/-! ## Jobs of the engine by their turns -/

section Known

variable {known : List (Turn workstation) → Prop}
  {engines : List (Turn Reflash.engine) → Request → Prop}
  (hengine : ∀ past r, engines (engineTurns past) r → allowed past (.engine r))
  (hknown : ∀ past r answer, known past → known (past ++ [⟨.engine r, answer⟩]))
include hengine hknown

theorem heeds_embed {d : Exchange α} {promised : List (Turn Reflash.engine) → α → Prop}
    {past : List (Turn workstation)} (hpast : known past)
    (h : d.Heeds engines promised (engineTurns past)) :
    (d.embed (J := workstation) .engine fun _ answer => answer).Heeds allowed
      (fun past a => known past ∧ promised (engineTurns past) a) past := by
  induction d generalizing past with
  | done a => exact ⟨hpast, h⟩
  | ask r next ih =>
      refine ⟨hengine past r h.1, fun answer => ih answer (hknown past r answer hpast) ?_⟩
      rw [engineTurns_append]
      exact h.2 answer

theorem heeds_always {job : Job Unit Empty α} {before : List (Turn Reflash.engine) → Prop}
    {after : α → List (Turn Reflash.engine) → Prop}
    (h : job.Heeds engines (fun past _ => before past) fun a past _ => after a past) :
    (always job).Heeds allowed (fun past _ => known past ∧ before (engineTurns past))
      fun a past _ => known past ∧ after a (engineTurns past) := by
  have hjob : (engine job ()).Heeds allowed
      (fun past _ => known past ∧ before (engineTurns past))
      fun result past _ => known past ∧ ∀ a, result.1 = .ok a → after a (engineTurns past) := by
    rintro past s ⟨hpast, hbefore⟩
    refine (heeds_embed hengine hknown hpast (h _ () hbefore)).bind ?_
    rintro past ⟨out, _⟩ ⟨hpast, hafter⟩
    cases out with
    | ok a =>
        rintro _ ⟨⟩
        refine ⟨hpast, ?_⟩
        rintro _ ⟨⟩
        exact hafter a rfl
    | failed e => exact e.elim
    | offBus => exact nofun
  have hmust : ∀ wrap, (must wrap job ()).Heeds allowed
      (fun past _ => known past ∧ before (engineTurns past))
      fun result past _ => known past ∧ after result.1 (engineTurns past) := by
    refine fun wrap => .bind hjob ?_
    rintro ⟨result, s⟩
    cases result with
    | ok a => exact Routine.Heeds.pure fun past _ hafter => ⟨hafter.1, hafter.2 a rfl⟩
    | error e => exact e.elim
  exact .bind (hmust _) fun result => .pure fun _ _ hafter => hafter

end Known
end Run
end Host
end Reflash
