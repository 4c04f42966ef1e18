import Mathlib.Computability.Language
import Reflash.Proofs.Routine
/-!
# What shows of a run

Of the turns of a run only some show to whoever looks for something: each turn as one letter, or not
at all. `Traces` says that what shows is a word of a language, whatever the answers and however the
run ends. For routines it has a condition before and one after, and one rule for each way to build a
routine. A routine of which nothing shows traces the language of the empty word.
-/

namespace Reflash

open scoped Computability

namespace Dialogue

variable {I J : Interface} {α β γ : Type} {see : Turn I → Option γ} {l m : Language γ}
  {promised : α → Prop} {ended : β → Prop}

/-- Whatever the answers, what shows of the turns is a word of the language, and the result is as
promised. -/
def Traces (see : Turn I → Option γ) (l : Language γ) (promised : α → Prop) (d : Dialogue I α) :
    Prop :=
  ∀ turns a, d.Plays turns a → turns.filterMap see ∈ l ∧ promised a

theorem traces_done {a : α} (hl : [] ∈ l) (ha : promised a) :
    (done a : Dialogue I α).Traces see l promised := by
  intro turns b hplays
  obtain ⟨rfl, rfl⟩ := plays_done.mp hplays
  exact ⟨hl, ha⟩

theorem Traces.bind {d : Dialogue I α} {f : α → Dialogue I β} (h : d.Traces see l promised)
    (hf : ∀ a, promised a → (f a).Traces see m ended) : (d.bind f).Traces see (l * m) ended := by
  intro turns b hplays
  obtain ⟨before, a, after, rfl, hbefore, hafter⟩ := plays_bind.mp hplays
  obtain ⟨hl, ha⟩ := h before a hbefore
  obtain ⟨hm, hb⟩ := hf a ha after b hafter
  rw [List.filterMap_append]
  exact ⟨Language.append_mem_mul hl hm, hb⟩

theorem Traces.mono {d : Dialogue I α} {promised' : α → Prop} (h : d.Traces see l promised)
    (hl : ∀ word ∈ l, word ∈ m) (hresult : ∀ a, promised a → promised' a) :
    d.Traces see m promised' :=
  fun turns a hplays => ⟨hl _ (h turns a hplays).1, hresult a (h turns a hplays).2⟩

theorem Keeps.traces {d : Dialogue I α} {unseen : I.Request → Prop} (h : d.Keeps unseen promised)
    (hunseen : ∀ r answer, unseen r → see ⟨r, answer⟩ = none) : d.Traces see 1 promised := by
  intro turns a hplays
  obtain ⟨hturns, ha⟩ := h.of_plays hplays
  refine ⟨(Language.mem_one _).mpr (List.filterMap_eq_nil_iff.mpr ?_), ha⟩
  exact fun turn hturn => hunseen turn.1 turn.2 (hturns turn hturn)

theorem Traces.embed {wider : I.Request → J.Request}
    {answer : (r : I.Request) → J.Answer (wider r) → I.Answer r} {see' : Turn J → Option γ}
    {d : Dialogue I α} (h : d.Traces see l promised)
    (hsee : ∀ r a, see' ⟨wider r, a⟩ = see ⟨r, answer r a⟩) :
    (d.embed wider answer).Traces see' l promised := by
  -- A run of the embedded dialogue shows what a run of the dialogue shows.
  have hplays : ∀ {turns a}, (d.embed wider answer).Plays turns a →
      ∃ turns', d.Plays turns' a ∧ turns.filterMap see' = turns'.filterMap see := by
    clear h
    induction d with
    | done a =>
        intro turns b hplays
        obtain ⟨rfl, rfl⟩ := plays_done.mp hplays
        exact ⟨[], .done b, rfl⟩
    | ask r next ih =>
        intro turns b hplays
        obtain ⟨a, rest, rfl, hrest⟩ := plays_ask.mp hplays
        obtain ⟨turns', hturns', heq⟩ := ih _ hrest
        refine ⟨⟨r, answer r a⟩ :: turns', .ask _ hturns', ?_⟩
        rw [List.filterMap_cons, List.filterMap_cons, hsee, heq]
  intro turns a hembedded
  obtain ⟨turns', hturns', heq⟩ := hplays hembedded
  rw [heq]
  exact h turns' a hturns'

end Dialogue

namespace Routine

variable {I : Interface} {σ τ ε ε' α β γ : Type} {see : Turn I → Option γ} {l m : Language γ}
  {before : σ → Prop} {mid : α → σ → Prop} {after : β → σ → Prop}

/-- From a state where `before` holds, what shows is a word of the language, and a success comes to
a value and a state where `after` holds. -/
def Traces (see : Turn I → Option γ) (l : Language γ) (before : σ → Prop) (after : α → σ → Prop)
    (r : Routine I σ ε α) : Prop :=
  ∀ s, before s → (r s).Traces see l fun (out, s') => ∀ a, out = .ok a → after a s'

namespace Traces

theorem of_keeps {r : Routine I σ ε α} {unseen : I.Request → Prop} {holds : σ → Prop}
    (h : r.Keeps unseen holds) (hunseen : ∀ r answer, unseen r → see ⟨r, answer⟩ = none)
    (hl : [] ∈ l) : r.Traces see l holds fun _ => holds :=
  fun s hs => ((h s hs).traces hunseen).mono
    (fun word hword => (Language.mem_one word).mp hword ▸ hl) fun _ hs' _ _ => hs'.1

theorem pure {b : β} (hl : [] ∈ l) (hb : ∀ s, before s → after b s) :
    (pure b : Routine I σ ε β).Traces see l before after := by
  refine fun s hs => Dialogue.traces_done hl ?_
  rintro _ ⟨⟩
  exact hb s hs

theorem fail (e : ε) (hl : [] ∈ l) : (fail e : Routine I σ ε β).Traces see l before after :=
  fun _ _ => Dialogue.traces_done hl fun _ h => by cases h

/-- A routine of two parts shows what both show, or what the first one shows if that one stops. -/
theorem bind_mul {r : Routine I σ ε α} {f : α → Routine I σ ε β}
    (hr : r.Traces see l before mid) (hf : ∀ a, (f a).Traces see m (mid a) after) (hm : [] ∈ m) :
    (r >>= f).Traces see (l * m) before after := by
  refine fun s hs => Dialogue.Traces.bind (hr s hs) ?_
  rintro ⟨out, s'⟩ hmid
  cases out with
  | ok a => exact hf a s' (hmid a rfl)
  | failed | offBus => exact Dialogue.traces_done hm fun _ h => by cases h

theorem bind {r : Routine I σ ε α} {f : α → Routine I σ ε β}
    (hr : r.Traces see l∗ before mid) (hf : ∀ a, (f a).Traces see l∗ (mid a) after) :
    (r >>= f).Traces see l∗ before after := by
  have hboth := hr.bind_mul hf (Language.nil_mem_kstar l)
  rwa [kstar_mul_kstar] at hboth

theorem quiet_bind {r : Routine I σ ε α} {f : α → Routine I σ ε β}
    (hr : r.Traces see 1 before mid) (hf : ∀ a, (f a).Traces see m (mid a) after) (hm : [] ∈ m) :
    (r >>= f).Traces see m before after := by
  have hboth := hr.bind_mul hf hm
  rwa [one_mul] at hboth

theorem bind_quiet {r : Routine I σ ε α} {f : α → Routine I σ ε β}
    (hr : r.Traces see l before mid) (hf : ∀ a, (f a).Traces see 1 (mid a) after) :
    (r >>= f).Traces see l before after := by
  have hboth := hr.bind_mul hf rfl
  rwa [mul_one] at hboth

theorem get_bind {f : σ → Routine I σ ε β} (hf : ∀ s, before s → (f s).Traces see l before after) :
    (Routine.get >>= f).Traces see l before after :=
  fun s hs => hf s hs s hs

theorem ite {p : Prop} [Decidable p] {r r' : Routine I σ ε β}
    (hr : r.Traces see l before after) (hr' : r'.Traces see l before after) :
    (if p then r else r').Traces see l before after := by
  split
  · exact hr
  · exact hr'

theorem within {part : τ → σ} {update : τ → σ → τ} {whole : τ → Prop} {whole' : α → τ → Prop}
    {r : Routine I σ ε α} (hr : r.Traces see l before mid)
    (hpart : ∀ t, whole t → before (part t))
    (hupdate : ∀ a t s, whole t → mid a s → whole' a (update t s)) :
    (r.within part update).Traces see l whole whole' := by
  intro t ht
  have hrest : ∀ result : Outcome ε α × σ, (∀ a, result.1 = .ok a → mid a result.2) →
      (Dialogue.done (result.1, update t result.2) : Dialogue I (Outcome ε α × τ)).Traces see 1
        fun result => ∀ a, result.1 = .ok a → whole' a result.2 :=
    fun result hresult => Dialogue.traces_done rfl fun a ha =>
      hupdate a t result.2 ht (hresult a ha)
  have hboth := Dialogue.Traces.bind (hr (part t) (hpart t ht)) hrest
  rwa [mul_one] at hboth

theorem conseq {before' : σ → Prop} {after' : β → σ → Prop} {r : Routine I σ ε β}
    (h : r.Traces see l before after) (hbefore : ∀ s, before' s → before s)
    (hl : ∀ word ∈ l, word ∈ m) (hafter : ∀ b s, after b s → after' b s) :
    r.Traces see m before' after' :=
  fun s hs => (h s (hbefore s hs)).mono hl fun result hresult b hb =>
    hafter b result.2 (hresult b hb)

end Traces
end Routine
end Reflash
