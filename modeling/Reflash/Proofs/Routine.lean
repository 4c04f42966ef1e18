import Reflash.Routine
import Reflash.Proofs.Dialogue
/-!
# Rules for routines

Routines form a lawful monad. `Keeps` says what a routine may ask for and what stays true of its
state, whatever the answers are and however the routine ends; it has one rule for each way to build
a routine. `Preserves` is about the state alone, `Gives` also about the value that a success
comes to, and `Confines` about the error of a failure. `run_bind` opens a run under a handler one
part at a time.
-/

deriving instance DecidableEq for Reflash.Outcome

namespace Reflash.Routine

variable {I : Interface} {σ τ ε ε' α β γ ω : Type}

theorem bind_eq (r : Routine I σ ε α) (f : α → Routine I σ ε β) : r >>= f = r.bind f := rfl

theorem bind_pure_eq (r : Routine I σ ε α) : r.bind (pure ·) = r := by
  funext s
  refine Eq.trans ?_ (Dialogue.bind_done (r s))
  rw [Routine.bind]
  congr 1
  funext ⟨out, s'⟩
  cases out <;> rfl

theorem bind_assoc (r : Routine I σ ε α) (f : α → Routine I σ ε β) (g : β → Routine I σ ε γ) :
    (r.bind f).bind g = r.bind fun a => (f a).bind g := by
  funext s
  simp only [Routine.bind, Dialogue.bind_assoc]
  congr 1
  funext ⟨out, s'⟩
  cases out <;> rfl

instance : LawfulMonad (Routine I σ ε) :=
  LawfulMonad.mk' (Routine I σ ε) bind_pure_eq (fun _ _ => rfl) bind_assoc

/-! ## What a routine keeps -/

/-- Only allowed requests are asked, the state stays as promised, and no address is off the bus. -/
def Keeps (allowed : I.Request → Prop) (holds : σ → Prop) (r : Routine I σ ε α) : Prop :=
  ∀ s, holds s → (r s).Keeps allowed fun (out, s') => holds s' ∧ out ≠ .offBus

section Keeps

variable {allowed : I.Request → Prop} {holds : σ → Prop}

theorem Keeps.pure (a : α) : (pure a : Routine I σ ε α).Keeps allowed holds :=
  fun _ hs => ⟨hs, nofun⟩

theorem Keeps.fail (e : ε) : (fail e : Routine I σ ε α).Keeps allowed holds :=
  fun _ hs => ⟨hs, nofun⟩

theorem Keeps.modify {f : σ → σ} (hf : ∀ s, holds s → holds (f s)) :
    (modify f : Routine I σ ε Unit).Keeps allowed holds :=
  fun s hs => ⟨hf s hs, nofun⟩

theorem Keeps.request {r : I.Request} (hr : allowed r) :
    (request r : Routine I σ ε (I.Answer r)).Keeps allowed holds :=
  fun _ hs => ⟨hr, fun _ => ⟨hs, nofun⟩⟩

theorem Keeps.lift {d : Dialogue I α} (hd : d.Keeps allowed fun _ => True) :
    (lift d : Routine I σ ε α).Keeps allowed holds :=
  fun _ hs => hd.bind fun _ _ => ⟨hs, nofun⟩

theorem Keeps.bind {r : Routine I σ ε α} {f : α → Routine I σ ε β}
    (hr : r.Keeps allowed holds) (hf : ∀ a, (f a).Keeps allowed holds) :
    (r >>= f).Keeps allowed holds := by
  intro s hs
  refine Dialogue.Keeps.bind (hr s hs) ?_
  rintro ⟨out, s'⟩ ⟨hs', hout⟩
  cases out with
  | ok a => exact hf a s' hs'
  | failed e => exact ⟨hs', nofun⟩
  | offBus => exact absurd rfl hout

theorem Keeps.get_bind {f : σ → Routine I σ ε β}
    (hf : ∀ s, holds s → (f s).Keeps allowed holds) :
    (Routine.get >>= f).Keeps allowed holds :=
  fun s hs => hf s hs s hs

theorem Keeps.ite {p : Prop} [Decidable p] {r r' : Routine I σ ε α}
    (hr : r.Keeps allowed holds) (hr' : r'.Keeps allowed holds) :
    (if p then r else r').Keeps allowed holds := by
  split
  · exact hr
  · exact hr'

theorem Keeps.within {whole : τ → Prop} {part : τ → σ} {update : τ → σ → τ}
    {r : Routine I σ ε α} (hr : r.Keeps allowed holds) (hpart : ∀ t, whole t → holds (part t))
    (hupdate : ∀ t s, whole t → holds s → whole (update t s)) :
    (r.within part update).Keeps allowed whole := by
  intro t ht
  refine Dialogue.Keeps.bind (hr (part t) (hpart t ht)) ?_
  rintro ⟨out, s'⟩ ⟨hs', hout⟩
  exact ⟨hupdate t s' ht hs', hout⟩

theorem Keeps.attempt {r : Routine I σ ε α} (hr : r.Keeps allowed holds) :
    (r.attempt : Routine I σ ε' (Except ε α)).Keeps allowed holds := by
  intro s hs
  refine Dialogue.Keeps.bind (hr s hs) ?_
  rintro ⟨out, s'⟩ ⟨hs', hout⟩
  cases out with
  | ok a => exact ⟨hs', nofun⟩
  | failed e => exact ⟨hs', nofun⟩
  | offBus => exact absurd rfl hout

theorem Keeps.mono {allowed' : I.Request → Prop} {r : Routine I σ ε α}
    (hr : r.Keeps allowed holds) (hasked : ∀ r, allowed r → allowed' r) :
    r.Keeps allowed' holds :=
  fun s hs => (hr s hs).mono hasked fun _ h => h

end Keeps

/-! ## What a routine comes to -/

section Gives

variable {holds : σ → Prop}

def Preserves (holds : σ → Prop) (r : Routine I σ ε α) : Prop :=
  ∀ s, holds s → (r s).Keeps (fun _ => True) fun (_, s') => holds s'

namespace Preserves

theorem pure (a : α) : (pure a : Routine I σ ε α).Preserves holds := fun _ hs => hs

theorem modify {f : σ → σ} (hf : ∀ s, holds s → holds (f s)) :
    (modify f : Routine I σ ε Unit).Preserves holds := fun s hs => hf s hs

theorem lift (d : Dialogue I α) : (lift d : Routine I σ ε α).Preserves holds :=
  fun _ hs => d.keeps_true.bind fun _ _ => hs

theorem request (r : I.Request) : (request r : Routine I σ ε _).Preserves holds :=
  fun _ hs => ⟨trivial, fun _ => hs⟩

theorem offBus : (offBus : Routine I σ ε α).Preserves holds := fun _ hs => hs

theorem on (r : Routine I τ ε α) (t : τ) :
    (r.on t : Routine I σ ε' (Except ε α × τ)).Preserves holds := by
  intro s hs
  refine (r t).keeps_true.bind ?_
  rintro ⟨out, t'⟩ -
  cases out with
  | ok | failed | offBus => exact hs

theorem bind {r : Routine I σ ε α} {f : α → Routine I σ ε β} (hr : r.Preserves holds)
    (hf : ∀ a, (f a).Preserves holds) : (r >>= f).Preserves holds := by
  intro s hs
  refine Dialogue.Keeps.bind (hr s hs) ?_
  rintro ⟨out, s'⟩ hs'
  cases out with
  | ok a => exact hf a s' hs'
  | failed | offBus => exact hs'

end Preserves

/-- From a state where `before` holds, only permitted requests are asked, and the routine comes to a
value and a state where `after` does, unless it fails. -/
def Gives (permits : I.Request → Prop) (before : σ → Prop) (after : α → σ → Prop)
    (r : Routine I σ ε α) : Prop :=
  ∀ s, before s → (r s).Keeps permits fun (out, s') => ∀ a, out = .ok a → after a s'

namespace Gives

variable {permits : I.Request → Prop} {before : σ → Prop} {mid : α → σ → Prop}
  {after : β → σ → Prop}

theorem of_preserves {r : Routine I σ ε α} (h : r.Preserves holds) :
    r.Gives (fun _ => True) holds fun _ => holds :=
  fun s hs => (h s hs).mono (fun _ => id) fun _ hs' _ _ => hs'

theorem of_keeps {r : Routine I σ ε α} (h : r.Keeps permits holds) :
    r.Gives permits holds fun _ => holds :=
  fun s hs => (h s hs).mono (fun _ => id) fun _ hs' _ _ => hs'.1

theorem modify {f : σ → σ} {after : σ → Prop} (hf : ∀ s, before s → after (f s)) :
    (modify f : Routine I σ ε Unit).Gives permits before fun _ => after := fun s hs _ _ => hf s hs

theorem get : (get : Routine I σ ε σ).Gives permits before fun s _ => before s := by
  rintro s hs a ⟨⟩
  exact hs

theorem pure {b : β} (hb : ∀ s, before s → after b s) :
    (pure b : Routine I σ ε β).Gives permits before after := by
  rintro s hs a ⟨⟩
  exact hb s hs

theorem fail (e : ε) : (fail e : Routine I σ ε β).Gives permits before after := by
  rintro s hs b ⟨⟩

theorem ofExcept {x : Except ε β} (hx : ∀ b, x = .ok b → ∀ s, before s → after b s) :
    (ofExcept x : Routine I σ ε β).Gives permits before after := by
  cases x with
  | ok b => exact .pure (hx b rfl)
  | error e => exact .fail e

theorem bind {r : Routine I σ ε α} {f : α → Routine I σ ε β} (hr : r.Gives permits before mid)
    (hf : ∀ a, (f a).Gives permits (mid a) after) : (r >>= f).Gives permits before after := by
  intro s hs
  refine Dialogue.Keeps.bind (hr s hs) ?_
  rintro ⟨out, s'⟩ hmid
  cases out with
  | ok a => exact hf a s' (hmid a rfl)
  | failed | offBus => exact nofun

theorem on {r : Routine I τ ε α} {before' : τ → Prop} {after' : α → τ → Prop}
    (hr : r.Gives permits before' after') {t : τ} (ht : before' t) :
    (r.on t : Routine I σ ε' (Except ε α × τ)).Gives permits (fun _ => True) fun result _ =>
      ∀ a, result.1 = .ok a → after' a result.2 := by
  intro s _
  refine Dialogue.Keeps.bind (hr t ht) ?_
  rintro ⟨out, t'⟩ hafter
  cases out with
  | ok a =>
      rintro result ⟨⟩ a' ⟨⟩
      exact hafter a rfl
  | failed e =>
      rintro result ⟨⟩ a' ⟨⟩
  | offBus => exact nofun

theorem of_imp {known : Prop} {r : Routine I σ ε β}
    (h : known → r.Gives permits (fun _ => True) after) :
    r.Gives permits (fun _ => known) after :=
  fun s hs => h hs s trivial

theorem on_of_keeps {r : Routine I τ ε α} {kept : τ → Prop} (hr : r.Keeps permits kept) {t : τ}
    (ht : kept t) :
    (r.on t : Routine I σ ε' (Except ε α × τ)).Gives permits (fun _ => True) fun result _ =>
      kept result.2 := by
  intro s _
  refine Dialogue.Keeps.bind (hr t ht) ?_
  rintro ⟨out, t'⟩ ⟨ht', -⟩
  cases out with
  | ok | failed =>
      rintro _ ⟨⟩
      exact ht'
  | offBus => exact nofun

end Gives

end Gives

/-! ## What a routine fails for -/

/-- From a state where `holds`, the routine comes to one where `holds`, and it fails only for one of
the causes. -/
def Confines (holds : σ → Prop) (causes : ε → Prop) (r : Routine I σ ε α) : Prop :=
  ∀ s, holds s → (r s).Keeps (fun _ => True) fun (out, s') =>
    holds s' ∧ ∀ e, out = .failed e → causes e

namespace Confines

variable {holds : σ → Prop} {causes : ε → Prop} {causes' : ε' → Prop}

theorem pure (a : α) : (pure a : Routine I σ ε α).Confines holds causes := fun _ hs => ⟨hs, nofun⟩

theorem fail {e : ε} (he : causes e) : (fail e : Routine I σ ε α).Confines holds causes := by
  refine fun _ hs => ⟨hs, ?_⟩
  rintro e' ⟨⟩
  exact he

theorem offBus : (offBus : Routine I σ ε α).Confines holds causes := fun _ hs => ⟨hs, nofun⟩

theorem modify {f : σ → σ} (hf : ∀ s, holds s → holds (f s)) :
    (modify f : Routine I σ ε Unit).Confines holds causes := fun s hs => ⟨hf s hs, nofun⟩

theorem lift (d : Dialogue I α) : (lift d : Routine I σ ε α).Confines holds causes :=
  fun _ hs => d.keeps_true.bind fun _ _ => ⟨hs, nofun⟩

theorem request (r : I.Request) : (request r : Routine I σ ε _).Confines holds causes :=
  fun _ hs => ⟨trivial, fun _ => ⟨hs, nofun⟩⟩

theorem bind {r : Routine I σ ε α} {f : α → Routine I σ ε β} (hr : r.Confines holds causes)
    (hf : ∀ a, (f a).Confines holds causes) : (r >>= f).Confines holds causes := by
  intro s hs
  refine Dialogue.Keeps.bind (hr s hs) ?_
  rintro ⟨out, s'⟩ ⟨hs', hcauses⟩
  cases out with
  | ok a => exact hf a s' hs'
  | failed e => exact ⟨hs', fun _ heq => hcauses _ (by cases heq; rfl)⟩
  | offBus => exact ⟨hs', nofun⟩

theorem get_bind {f : σ → Routine I σ ε β} (hf : ∀ s, (f s).Confines holds causes) :
    (Routine.get >>= f).Confines holds causes := fun s hs => hf s s hs

theorem ite {p : Prop} [Decidable p] {r r' : Routine I σ ε α} (hr : r.Confines holds causes)
    (hr' : r'.Confines holds causes) : (if p then r else r').Confines holds causes := by
  split
  · exact hr
  · exact hr'

theorem within {whole : τ → Prop} {part : τ → σ} {update : τ → σ → τ} {r : Routine I σ ε α}
    (hr : r.Confines holds causes) (hpart : ∀ t, whole t → holds (part t))
    (hupdate : ∀ t s, whole t → holds s → whole (update t s)) :
    (r.within part update).Confines whole causes := by
  intro t ht
  refine Dialogue.Keeps.bind (hr (part t) (hpart t ht)) ?_
  rintro ⟨out, s'⟩ ⟨hs', hcauses⟩
  exact ⟨hupdate t s' ht hs', hcauses⟩

theorem attempt_bind {r : Routine I σ ε' α} {f : Except ε' α → Routine I σ ε β}
    (hr : r.Confines holds causes') (hok : ∀ a, (f (.ok a)).Confines holds causes)
    (herror : ∀ e, causes' e → (f (.error e)).Confines holds causes) :
    (r.attempt >>= f).Confines holds causes := by
  intro s hs
  rw [bind_eq, Routine.bind, attempt, Dialogue.bind_assoc]
  refine Dialogue.Keeps.bind (hr s hs) ?_
  rintro ⟨out, s'⟩ ⟨hs', hcauses⟩
  cases out with
  | ok a => exact hok a s' hs'
  | failed e => exact herror e (hcauses e rfl) s' hs'
  | offBus => exact ⟨hs', nofun⟩

end Confines

/-! ## Runs under a handler -/

/-- The second part of a routine runs from where the first one left off, unless that one stopped. -/
theorem run_bind (h : Handler I ω) (r : Routine I σ ε α) (f : α → Routine I σ ε β) (s : σ) (w : ω) :
    ((r >>= f) s).run h w =
      match (r s).run h w with
      | ((.ok a, s'), w') => (f a s').run h w'
      | ((.failed e, s'), w') => ((.failed e, s'), w')
      | ((.offBus, s'), w') => ((.offBus, s'), w') := by
  rw [bind_eq, Routine.bind, Dialogue.run_bind]
  obtain ⟨⟨out, s'⟩, w'⟩ := (r s).run h w
  cases out <;> rfl

theorem run_bind_ok {h : Handler I ω} {r : Routine I σ ε α} {f : α → Routine I σ ε β} {s s' : σ}
    {w w' : ω} {a : α} (hr : (r s).run h w = ((.ok a, s'), w')) :
    ((r >>= f) s).run h w = (f a s').run h w' := by
  rw [run_bind, hr]

theorem run_bind_failed {h : Handler I ω} {r : Routine I σ ε α} {f : α → Routine I σ ε β}
    {s s' : σ} {w w' : ω} {e : ε} (hr : (r s).run h w = ((.failed e, s'), w')) :
    ((r >>= f) s).run h w = ((.failed e, s'), w') := by
  rw [run_bind, hr]

theorem run_get_bind (h : Handler I ω) (f : σ → Routine I σ ε β) (s : σ) (w : ω) :
    ((get >>= f) s).run h w = (f s s).run h w := rfl

end Reflash.Routine
