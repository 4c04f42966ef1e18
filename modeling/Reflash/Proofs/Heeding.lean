import Reflash.Proofs.Routine
/-!
# What a request may rely on

Often a request is only right because of what has been asked before it, and how that was answered.
`Heeds` judges each request by the turns before it, and the result by all of them. For routines it
has a condition before and one after, and one rule for each way to build a routine. Where the past
does not matter it is `Keeps`.
-/

namespace Reflash

namespace Dialogue

variable {I : Interface} {α β : Type} {allowed : List (Turn I) → I.Request → Prop}
  {promised : List (Turn I) → α → Prop} {permits : I.Request → Prop} {holds : α → Prop}
  {past turns : List (Turn I)}

/-- Whatever the answers, each request is allowed after the turns before it, and the result is as
promised after all of them. -/
def Heeds (allowed : List (Turn I) → I.Request → Prop) (promised : List (Turn I) → α → Prop) :
    List (Turn I) → Dialogue I α → Prop
  | past, done a => promised past a
  | past, ask r next =>
    allowed past r ∧ ∀ answer, (next answer).Heeds allowed promised (past ++ [⟨r, answer⟩])

theorem Heeds.bind {d : Dialogue I α} {f : α → Dialogue I β} {ended : List (Turn I) → β → Prop}
    (h : d.Heeds allowed promised past)
    (hf : ∀ past a, promised past a → (f a).Heeds allowed ended past) :
    (d.bind f).Heeds allowed ended past := by
  induction d generalizing past with
  | done a => exact hf past a h
  | ask r next ih => exact ⟨h.1, fun answer => ih answer (h.2 answer)⟩

theorem Heeds.mono {allowed' : List (Turn I) → I.Request → Prop}
    {promised' : List (Turn I) → α → Prop} {d : Dialogue I α} (h : d.Heeds allowed promised past)
    (hasked : ∀ past r, allowed past r → allowed' past r)
    (hresult : ∀ past a, promised past a → promised' past a) :
    d.Heeds allowed' promised' past := by
  induction d generalizing past with
  | done a => exact hresult past a h
  | ask r next ih => exact ⟨hasked past r h.1, fun answer => ih answer (h.2 answer)⟩

theorem Heeds.of_plays {d : Dialogue I α} {a : α} {before after : List (Turn I)} {turn : Turn I}
    (h : d.Heeds allowed promised past) (hplays : d.Plays turns a)
    (hturns : turns = before ++ turn :: after) : allowed (past ++ before) turn.1 := by
  induction hplays generalizing past before with
  | done a => cases before <;> cases hturns
  | ask answer rest ih =>
      obtain ⟨hr, hnext⟩ := h
      cases before with
      | nil =>
          obtain ⟨rfl, -⟩ := List.cons.inj hturns
          rwa [List.append_nil]
      | cons first before =>
          obtain ⟨rfl, hrest⟩ := List.cons.inj hturns
          rw [List.append_cons]
          exact ih (hnext answer) hrest

/-- Something that no permitted turn takes away is known as long as there are no others. -/
theorem Keeps.heeds {d : Dialogue I α} {known : List (Turn I) → Prop} (h : d.Keeps permits holds)
    (hallowed : ∀ past r, known past → permits r → allowed past r)
    (hknown : ∀ past r answer, known past → permits r → known (past ++ [⟨r, answer⟩]))
    (hpast : known past) : d.Heeds allowed (fun past a => known past ∧ holds a) past := by
  induction d generalizing past with
  | done a => exact ⟨hpast, h⟩
  | ask r next ih =>
      refine ⟨hallowed past r hpast h.1, fun answer => ?_⟩
      exact ih answer (h.2 answer) (hknown past r answer hpast h.1)

theorem Heeds.keeps {d : Dialogue I α} (h : d.Heeds (fun _ => permits) (fun _ => holds) past) :
    d.Keeps permits holds := by
  induction d generalizing past with
  | done a => exact h
  | ask r next ih => exact ⟨h.1, fun answer => ih answer (h.2 answer)⟩

end Dialogue

namespace Routine

variable {I : Interface} {σ τ ε ε' α β : Type} {allowed : List (Turn I) → I.Request → Prop}
  {before : List (Turn I) → σ → Prop} {mid : α → List (Turn I) → σ → Prop}
  {after : β → List (Turn I) → σ → Prop}

/-- From turns and a state where `before` holds, each request is allowed after the turns before it,
and a success comes to a value, turns and a state where `after` holds. -/
def Heeds (allowed : List (Turn I) → I.Request → Prop) (before : List (Turn I) → σ → Prop)
    (after : α → List (Turn I) → σ → Prop) (r : Routine I σ ε α) : Prop :=
  ∀ past s, before past s →
    (r s).Heeds allowed (fun past (out, s') => ∀ a, out = .ok a → after a past s') past

namespace Heeds

theorem pure {b : β} (hb : ∀ past s, before past s → after b past s) :
    (pure b : Routine I σ ε β).Heeds allowed before after := by
  rintro past s hs _ ⟨⟩
  exact hb past s hs

theorem fail (e : ε) : (fail e : Routine I σ ε β).Heeds allowed before after :=
  fun _ _ _ => nofun

theorem request {r : I.Request} {after : I.Answer r → List (Turn I) → σ → Prop}
    (hr : ∀ past s, before past s → allowed past r)
    (hafter : ∀ past s answer, before past s → after answer (past ++ [⟨r, answer⟩]) s) :
    (request r : Routine I σ ε (I.Answer r)).Heeds allowed before after := by
  refine fun past s hs => ⟨hr past s hs, fun answer => ?_⟩
  rintro _ ⟨⟩
  exact hafter past s answer hs

theorem bind {r : Routine I σ ε α} {f : α → Routine I σ ε β} (hr : r.Heeds allowed before mid)
    (hf : ∀ a, (f a).Heeds allowed (mid a) after) : (r >>= f).Heeds allowed before after := by
  intro past s hs
  refine Dialogue.Heeds.bind (hr past s hs) ?_
  rintro past ⟨out, s'⟩ hmid
  cases out with
  | ok a => exact hf a past s' (hmid a rfl)
  | failed | offBus => exact nofun

theorem ite {p : Prop} [Decidable p] {r r' : Routine I σ ε β}
    (hr : p → r.Heeds allowed before after) (hr' : ¬p → r'.Heeds allowed before after) :
    (if p then r else r').Heeds allowed before after := by
  split
  next hp => exact hr hp
  next hp => exact hr' hp

theorem conseq {before' : List (Turn I) → σ → Prop} {after' : β → List (Turn I) → σ → Prop}
    {r : Routine I σ ε β} (h : r.Heeds allowed before after)
    (hbefore : ∀ past s, before' past s → before past s)
    (hafter : ∀ b past s, after b past s → after' b past s) : r.Heeds allowed before' after' :=
  fun past s hs => (h past s (hbefore past s hs)).mono (fun _ _ => id)
    fun past result hresult b hb => hafter b past result.2 (hresult b hb)

end Heeds
end Routine
end Reflash
