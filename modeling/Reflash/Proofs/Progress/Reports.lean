import Reflash.Engine
import Reflash.Proofs.Routine
/-!
# Events of a run

Among the turns of a run are the events that it reports. `Reports` says what they can be, told apart
by how the routine ends, whatever the answers are, and that no address is off the bus. It has one
rule for each way to build a routine.
-/

namespace Reflash

def Request.event? : Request → Option Event
  | .report e => some e
  | .read _ | .write _ _ | .probe _ | .pause _ | .tick | .remark _ => none

def Request.IsMute : Request → Prop
  | .report _ => False
  | .read _ | .write _ _ | .probe _ | .pause _ | .tick | .remark _ => True

theorem Request.IsMute.event?_eq {r : Request} (h : r.IsMute) : r.event? = none := by
  cases r with
  | report => exact h.elim
  | read | write | probe | pause | tick | remark => rfl

def eventsOf (turns : List (Turn engine)) : List Event :=
  turns.filterMap fun turn => turn.1.event?

theorem eventsOf_append (before after : List (Turn engine)) :
    eventsOf (before ++ after) = eventsOf before ++ eventsOf after := List.filterMap_append

theorem eventsOf_eq_nil {turns : List (Turn engine)} (h : ∀ turn ∈ turns, turn.1.IsMute) :
    eventsOf turns = [] := List.filterMap_eq_nil_iff.mpr fun turn hturn => (h turn hturn).event?_eq

theorem Exchange.eventsOf_reportAll {events : List Event} {turns : List (Turn engine)}
    (h : (reportAll events).Plays turns ()) : eventsOf turns = events := by
  induction events generalizing turns with
  | nil =>
      obtain ⟨rfl, -⟩ := Dialogue.plays_done.mp h
      rfl
  | cons e rest ih =>
      obtain ⟨answer, after, rfl, hrest⟩ := Dialogue.plays_ask.mp h
      exact congrArg (e :: ·) (ih hrest)

namespace Routine

variable {σ τ ε ε' α β : Type} {r : Job σ ε α} {f : α → Job σ ε β} {s : σ}
  {ok : List Event → β → σ → Prop} {mid : List Event → α → σ → Prop}
  {failed : List Event → ε → σ → Prop}

/-- From this state, whatever the answers, the events are as `ok` says with the value and the state
of a success, or as `failed` says with the error and the state of a failure. -/
def Reports (r : Job σ ε α) (s : σ) (ok : List Event → α → σ → Prop)
    (failed : List Event → ε → σ → Prop) : Prop :=
  ∀ turns out s', (r s).Plays turns (out, s') →
    match out with
    | .ok a => ok (eventsOf turns) a s'
    | .failed e => failed (eventsOf turns) e s'
    | .offBus => False

namespace Reports

theorem pure {b : β} (h : ok [] b s) : (pure b : Job σ ε β).Reports s ok failed := by
  intro turns out s' hplays
  obtain ⟨rfl, hout⟩ := Dialogue.plays_done.mp hplays
  cases hout
  exact h

theorem fail {e : ε} (h : failed [] e s) : (fail e : Job σ ε β).Reports s ok failed := by
  intro turns out s' hplays
  obtain ⟨rfl, hout⟩ := Dialogue.plays_done.mp hplays
  cases hout
  exact h

theorem modify {g : σ → σ} {ok : List Event → Unit → σ → Prop} (h : ok [] () (g s)) :
    (modify g : Job σ ε Unit).Reports s ok failed := by
  intro turns out s' hplays
  obtain ⟨rfl, hout⟩ := Dialogue.plays_done.mp hplays
  cases hout
  exact h

theorem get_bind {f : σ → Job σ ε β} (h : (f s).Reports s ok failed) :
    (Routine.get >>= f).Reports s ok failed := h

theorem modify_bind {g : σ → σ} {f : Unit → Job σ ε β} (h : (f ()).Reports (g s) ok failed) :
    (Routine.modify g >>= f).Reports s ok failed := h

theorem reportAll (events : List Event) {ok : List Event → Unit → σ → Prop}
    (h : ok events () s) :
    (lift (Exchange.reportAll events) : Job σ ε Unit).Reports s ok failed := by
  intro turns out s' hplays
  obtain ⟨before, a, after, rfl, hbefore, hafter⟩ := Dialogue.plays_bind.mp hplays
  obtain ⟨rfl, hout⟩ := Dialogue.plays_done.mp hafter
  cases hout
  rwa [List.append_nil, Exchange.eventsOf_reportAll hbefore]

theorem report {e : Event} {ok : List Event → Unit → σ → Prop} (h : ok [e] () s) :
    (lift (Exchange.report e) : Job σ ε Unit).Reports s ok failed := reportAll [e] h

theorem mono {ok' : List Event → α → σ → Prop} {failed' : List Event → ε → σ → Prop}
    (h : r.Reports s mid failed) (hok : ∀ events a s', mid events a s' → ok' events a s')
    (hfailed : ∀ events e s', failed events e s' → failed' events e s') :
    r.Reports s ok' failed' := by
  intro turns out s' hplays
  have hends := h turns out s' hplays
  cases out with
  | ok a => exact hok _ _ _ hends
  | failed e => exact hfailed _ _ _ hends
  | offBus => exact hends

theorem mono_failed {failed' : List Event → ε → σ → Prop} (h : r.Reports s mid failed)
    (hfailed : ∀ events e s', failed events e s' → failed' events e s') :
    r.Reports s mid failed' := h.mono (fun _ _ _ => id) hfailed

theorem bind (h : r.Reports s mid failed)
    (hf : ∀ events a s', mid events a s' → (f a).Reports s' (fun more => ok (events ++ more))
      fun more => failed (events ++ more)) : (r >>= f).Reports s ok failed := by
  intro turns out s' hplays
  obtain ⟨before, ⟨out₁, s₁⟩, after, rfl, hbefore, hafter⟩ := Dialogue.plays_bind.mp hplays
  have hfirst := h before out₁ s₁ hbefore
  rw [eventsOf_append]
  cases out₁ with
  | ok a => exact hf _ a s₁ hfirst after out s' hafter
  | failed e =>
      obtain ⟨rfl, hout⟩ := Dialogue.plays_done.mp hafter
      cases hout
      dsimp only
      rwa [eventsOf_eq_nil (List.forall_mem_nil _), List.append_nil]
  | offBus => exact hfirst.elim

theorem within {part : τ → σ} {update : τ → σ → τ} {t : τ} {ok : List Event → α → τ → Prop}
    {failed : List Event → ε → τ → Prop}
    (h : r.Reports (part t) (fun events a s' => ok events a (update t s'))
      fun events e s' => failed events e (update t s')) :
    (r.within part update).Reports t ok failed := by
  intro turns out t' hplays
  obtain ⟨before, ⟨out₁, s₁⟩, after, rfl, hbefore, hafter⟩ := Dialogue.plays_bind.mp hplays
  obtain ⟨rfl, hout⟩ := Dialogue.plays_done.mp hafter
  cases hout
  rw [List.append_nil]
  exact h before out s₁ hbefore

theorem attempt_bind {f : Except ε α → Job σ ε' β} {mid' : List Event → ε → σ → Prop}
    {failed : List Event → ε' → σ → Prop} (h : r.Reports s mid mid')
    (hok : ∀ events a s', mid events a s' →
      (f (.ok a)).Reports s' (fun more => ok (events ++ more)) fun more => failed (events ++ more))
    (herror : ∀ events e s', mid' events e s' →
      (f (.error e)).Reports s' (fun more => ok (events ++ more)) fun more =>
        failed (events ++ more)) : (r.attempt >>= f).Reports s ok failed := by
  intro turns out s' hplays
  rw [bind_eq, Routine.bind, Routine.attempt, Dialogue.bind_assoc] at hplays
  obtain ⟨before, ⟨out₁, s₁⟩, after, rfl, hbefore, hafter⟩ := Dialogue.plays_bind.mp hplays
  have hfirst := h before out₁ s₁ hbefore
  rw [eventsOf_append]
  cases out₁ with
  | ok a => exact hok _ a s₁ hfirst after out s' hafter
  | failed e => exact herror _ e s₁ hfirst after out s' hafter
  | offBus => exact hfirst.elim

theorem on_bind {r : Job τ ε α} {t : τ} {f : Except ε α × τ → Job σ ε' β}
    {mid : List Event → α → τ → Prop} {mid' : List Event → ε → τ → Prop}
    {failed : List Event → ε' → σ → Prop} (h : r.Reports t mid mid')
    (hok : ∀ events a t', mid events a t' →
      (f (.ok a, t')).Reports s (fun more => ok (events ++ more)) fun more =>
        failed (events ++ more))
    (herror : ∀ events e t', mid' events e t' →
      (f (.error e, t')).Reports s (fun more => ok (events ++ more)) fun more =>
        failed (events ++ more)) : (r.on t >>= f).Reports s ok failed := by
  intro turns out s' hplays
  rw [bind_eq, Routine.bind, Routine.on, Dialogue.bind_assoc] at hplays
  obtain ⟨before, ⟨out₁, t₁⟩, after, rfl, hbefore, hafter⟩ := Dialogue.plays_bind.mp hplays
  have hfirst := h before out₁ t₁ hbefore
  rw [eventsOf_append]
  cases out₁ with
  | ok a => exact hok _ a t₁ hfirst after out s' hafter
  | failed e => exact herror _ e t₁ hfirst after out s' hafter
  | offBus => exact hfirst.elim

theorem mute {ok : List Event → α → σ → Prop} {holds : σ → Prop}
    (h : r.Keeps Request.IsMute holds) (hs : holds s) (hok : ∀ a s', holds s' → ok [] a s')
    (hfailed : ∀ e s', holds s' → failed [] e s') : r.Reports s ok failed := by
  intro turns out s' hplays
  obtain ⟨hturns, hs', hout⟩ := (h s hs).of_plays hplays
  rw [eventsOf_eq_nil hturns]
  cases out with
  | ok a => exact hok a s' hs'
  | failed e => exact hfailed e s' hs'
  | offBus => exact hout rfl

theorem mute_bind {holds : σ → Prop} (h : r.Keeps Request.IsMute holds) (hs : holds s)
    (hf : ∀ a s', holds s' → (f a).Reports s' ok failed)
    (hfailed : ∀ e s', holds s' → failed [] e s') : (r >>= f).Reports s ok failed := by
  have hfirst : r.Reports s (fun events _ s' => events = [] ∧ holds s') failed :=
    mute h hs (fun _ _ hs' => ⟨rfl, hs'⟩) hfailed
  refine hfirst.bind ?_
  rintro _ a s' ⟨rfl, hs'⟩
  exact hf a s' hs'

theorem ask_bind {q : Request} (hq : q.IsMute) {f : q.Answer → Job σ ε β}
    (hf : ∀ answer, (f answer).Reports s ok failed) : (Job.ask q >>= f).Reports s ok failed := by
  intro turns out s' hplays
  obtain ⟨answer, after, rfl, hafter⟩ := Dialogue.plays_ask.mp hplays
  have hevents : eventsOf (⟨q, answer⟩ :: after) = eventsOf after :=
    List.filterMap_cons_none hq.event?_eq
  rw [hevents]
  exact hf answer after out s' hafter

theorem remark_bind {remark : Remark} {f : Unit → Job σ ε β} (hf : (f ()).Reports s ok failed) :
    (Job.remark remark >>= f).Reports s ok failed :=
  ask_bind (q := .remark remark) trivial fun _ => hf

theorem pause_bind {milliseconds : Nat} {f : Unit → Job σ ε β}
    (hf : (f ()).Reports s ok failed) : (Job.pause milliseconds >>= f).Reports s ok failed := by
  rw [Job.pause]
  split
  · exact hf
  · exact ask_bind (q := .pause milliseconds) trivial fun _ => hf

theorem reportAll_bind (events : List Event) {f : Unit → Job σ ε β}
    (hf : (f ()).Reports s (fun more => ok (events ++ more)) fun more => failed (events ++ more)) :
    (lift (Exchange.reportAll events) >>= f).Reports s ok failed := by
  have hfirst : (lift (Exchange.reportAll events) : Job σ ε Unit).Reports s
      (fun told _ s' => told = events ∧ s' = s) failed := reportAll events ⟨rfl, rfl⟩
  refine hfirst.bind ?_
  rintro _ _ _ ⟨rfl, rfl⟩
  exact hf

theorem report_bind {e : Event} {f : Unit → Job σ ε β}
    (hf : (f ()).Reports s (fun more => ok (e :: more)) fun more => failed (e :: more)) :
    (lift (Exchange.report e) >>= f).Reports s ok failed := reportAll_bind [e] hf

end Reports
end Routine

/-! ## One event, a number of times -/

def Told (e : Event) (often : Nat → Prop) (events : List Event) : Prop :=
  ∃ n, often n ∧ events = List.replicate n e

section Told

variable {e : Event} {often often' : Nat → Prop} {events : List Event}

theorem told_nil (h : often 0) : Told e often [] := ⟨0, h, rfl⟩

theorem Told.mono (h : Told e often events) (hmore : ∀ n, often n → often' n) :
    Told e often' events := by
  obtain ⟨n, hn, rfl⟩ := h
  exact ⟨n, hmore n hn, rfl⟩

theorem Told.cons (h : Told e often events) (hmore : ∀ n, often n → often' (n + 1)) :
    Told e often' (e :: events) := by
  obtain ⟨n, hn, rfl⟩ := h
  exact ⟨n + 1, hmore n hn, rfl⟩

end Told

namespace Routine

variable {σ τ ε α β : Type} {e : Event} {holds : σ → Prop} {often often' more more' : Nat → Prop}

/-- From a state where `holds`, the event is reported as often as `often` says if the routine
succeeds and as often as `often'` says if it fails, and nothing else is. In both cases it leaves a
state where `holds`. -/
def Counts (e : Event) (holds : σ → Prop) (often often' : Nat → Prop) (r : Job σ ε α) : Prop :=
  ∀ s, holds s → r.Reports s (fun events _ s' => Told e often events ∧ holds s')
    fun events _ s' => Told e often' events ∧ holds s'

namespace Counts

variable {r : Job σ ε α} {f : α → Job σ ε β}

theorem mute (h : r.Keeps Request.IsMute holds) (hnone : often 0) (hnone' : often' 0) :
    r.Counts e holds often often' :=
  fun _ hs => .mute h hs (fun _ _ hs' => ⟨told_nil hnone, hs'⟩) fun _ _ hs' =>
    ⟨told_nil hnone', hs'⟩

theorem fail {cause : ε} (hnone : often' 0) :
    (Routine.fail cause : Job σ ε α).Counts e holds often often' :=
  fun _ hs => .fail ⟨told_nil hnone, hs⟩

theorem mono (h : r.Counts e holds often often') (hmore : ∀ n, often n → more n)
    (hmore' : ∀ n, often' n → more' n) : r.Counts e holds more more' :=
  fun s hs => (h s hs).mono (fun _ _ _ h => ⟨h.1.mono hmore, h.2⟩) fun _ _ _ h =>
    ⟨h.1.mono hmore', h.2⟩

theorem mute_bind (hr : r.Keeps Request.IsMute holds)
    (hf : ∀ a, (f a).Counts e holds often often') (hnone : often' 0) :
    (r >>= f).Counts e holds often often' :=
  fun _ hs => .mute_bind hr hs (fun a s' => hf a s') fun _ _ hs' => ⟨told_nil hnone, hs'⟩

theorem bind_mute (hr : r.Counts e holds often often') (hf : ∀ a, (f a).Keeps Request.IsMute holds)
    (hfails : ∀ n, often n → often' n) : (r >>= f).Counts e holds often often' := by
  refine fun s hs => (hr s hs).bind ?_
  rintro events a s' ⟨htold, hs'⟩
  rw [← List.append_nil events] at htold
  exact .mute (hf a) hs' (fun _ _ h => ⟨htold, h⟩) fun _ _ h => ⟨htold.mono hfails, h⟩

theorem get_bind {f : σ → Job σ ε β} (hf : ∀ s, holds s → (f s).Counts e holds often often') :
    (Routine.get >>= f).Counts e holds often often' := fun s hs => .get_bind (hf s hs s hs)

theorem report_bind {f : Unit → Job σ ε β} (hf : (f ()).Counts e holds often often')
    (hmore : ∀ n, often n → more (n + 1)) (hmore' : ∀ n, often' n → more' (n + 1)) :
    (lift (Exchange.report e) >>= f).Counts e holds more more' :=
  fun s hs => .report_bind <| (hf s hs).mono (fun _ _ _ h => ⟨h.1.cons hmore, h.2⟩) fun _ _ _ h =>
    ⟨h.1.cons hmore', h.2⟩

theorem ite {p : Prop} [Decidable p] {r' : Job σ ε α} (h : p → r.Counts e holds often often')
    (h' : ¬p → r'.Counts e holds often often') :
    (if p then r else r').Counts e holds often often' := by
  split
  next hp => exact h hp
  next hp => exact h' hp

theorem within {whole : τ → Prop} {part : τ → σ} {update : τ → σ → τ}
    (hr : r.Counts e holds often often') (hpart : ∀ t, whole t → holds (part t))
    (hupdate : ∀ t s, whole t → holds s → whole (update t s)) :
    (r.within part update).Counts e whole often often' :=
  fun t ht => .within <| (hr (part t) (hpart t ht)).mono
    (fun _ _ s' h => ⟨h.1, hupdate t s' ht h.2⟩) fun _ _ s' h => ⟨h.1, hupdate t s' ht h.2⟩

end Counts
end Routine
end Reflash
