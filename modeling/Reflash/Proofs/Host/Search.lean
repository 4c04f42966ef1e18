import Reflash.Proofs.Host.Finding
import Reflash.Proofs.Host.Turns
import Reflash.Proofs.Inserts
/-!
# The search for boards

What the tool asks the bus when it looks for boards, and what it then works with, whatever the bus
answers: one probe of each slot in ascending order, one read behind each probe that is answered, and
the boards whose value is accepted and whose slot the configuration covers.
-/

namespace Reflash

theorem Slot.base_eq (slot : Slot) : slot.base = (slot.number * 0x80000).toUInt32 := by
  have hcount := slot.le_count
  refine UInt32.toNat_inj.mp (slot.toNat_base.trans ?_)
  rw [slotWindow, Nat.toUInt32_eq, UInt32.toNat_ofNat']
  omega

/-! ## The cycles of a search -/

namespace Registry

variable {σ ε : Type} {offset : UInt32} {accept : UInt32 → Bool} {slot : Slot} {slots : List Slot}
  {found : Registry} {reply : Slot → Option UInt32}

/-- The cycles of a look at one slot: a probe that is not answered, or one that is, and a read. -/
def lookCycles (offset : UInt32) (slot : Slot) : Option UInt32 → List Access
  | none => [.probe (slot.base + offset) false]
  | some value => [.probe (slot.base + offset) true, .read (slot.base + offset) value]

theorem ends_probe (hoffset : offset ≤ Register.engineStatus) {s s' : σ} {cycles : List Access}
    {out : Outcome ε (Option UInt32)}
    (h : ((Board.geographic slot).probe offset : Job σ ε (Option UInt32)).Ends s cycles out s') :
    ∃ value?, cycles = lookCycles offset slot value? ∧ out = .ok value? ∧ s' = s := by
  rw [Board.probe, slot.fits_geographic.address_eq hoffset, pure_bind] at h
  obtain ⟨answered, after, rfl, hread⟩ := Job.ends_ask_bind h
  cases answered with
  | false =>
      obtain ⟨rfl, rfl, rfl⟩ := Routine.ends_pure.mp hread
      exact ⟨none, rfl, rfl, rfl⟩
  | true =>
      rw [if_pos rfl] at hread
      obtain ⟨value, more, rfl, hpure⟩ := Job.ends_ask_bind hread
      obtain ⟨rfl, rfl, rfl⟩ := Routine.ends_pure.mp hpure
      exact ⟨some value, rfl, rfl, rfl⟩

def withReplies (found : Registry) (accept : UInt32 → Bool) (reply : Slot → Option UInt32)
    (slots : List Slot) : Registry :=
  ⟨fun slot =>
    if slot ∈ slots ∧ (reply slot).any accept = true then some slot.base else found.base? slot⟩

def tell (reply : Slot → Option UInt32) (slot : Slot) (value? : Option UInt32) (other : Slot) :
    Option UInt32 :=
  if other = slot then value? else reply other

theorem flatMap_lookCycles_tell (hfresh : slot ∉ slots) (value? : Option UInt32) :
    slots.flatMap (fun other => lookCycles offset other (tell reply slot value? other)) =
      slots.flatMap fun other => lookCycles offset other (reply other) := by
  refine congrArg List.flatten (List.map_congr_left fun other hother => ?_)
  have hne : other ≠ slot := fun heq => hfresh (heq ▸ hother)
  rw [tell, if_neg hne]

theorem withReplies_cons (hfresh : slot ∉ slots) (value? : Option UInt32) :
    (if value?.any accept = true then found.insert slot slot.base else found).withReplies accept
        reply slots =
      found.withReplies accept (tell reply slot value?) (slot :: slots) := by
  unfold withReplies
  congr 1
  funext other
  by_cases hother : other = slot
  · subst hother
    by_cases haccept : value?.any accept = true <;> simp [tell, hfresh, haccept, base?_insert]
  · have hsame : (if value?.any accept = true then found.insert slot slot.base else found).base?
        other = found.base? other := by
      split
      · rw [base?_insert, if_neg hother]
      · rfl
    rw [hsame]
    simp [tell, hother]

/-- A search looks at the slots one by one, and does nothing else. -/
theorem ends_discoverIn (hoffset : offset ≤ Register.engineStatus) (hnodup : slots.Nodup)
    {s s' : σ} {cycles : List Access} {out : Outcome ε Registry}
    (h : (discoverIn offset accept slots found : Job σ ε Registry).Ends s cycles out s') :
    ∃ reply : Slot → Option UInt32,
      cycles = slots.flatMap (fun slot => lookCycles offset slot (reply slot)) ∧
      out = .ok (found.withReplies accept reply slots) ∧ s' = s := by
  induction slots generalizing found cycles with
  | nil =>
      obtain ⟨rfl, rfl, rfl⟩ := Routine.ends_pure.mp h
      exact ⟨fun _ => none, rfl, by simp [withReplies], rfl⟩
  | cons slot rest ih =>
      obtain ⟨hfresh, hnodup'⟩ := List.nodup_cons.mp hnodup
      rw [discoverIn] at h
      obtain ⟨before, value?, s₁, after, rfl, hlook, hrest⟩ | ⟨e, -, hlook⟩ | ⟨-, hlook⟩ :=
        Routine.ends_bind.mp h
      · obtain ⟨_, rfl, hvalue, rfl⟩ := ends_probe hoffset hlook
        cases hvalue
        -- What is noted of the board is no cycle.
        have hmore : (discoverIn offset accept rest
            (if value?.any accept = true then found.insert slot slot.base else found) :
              Job σ ε Registry).Ends s₁ after out s' := by
          cases value? with
          | none => exact hrest
          | some value =>
              dsimp only [Option.any_some] at hrest ⊢
              split at hrest
              next haccept =>
                rw [if_pos haccept]
                exact Job.ends_remark_bind hrest
              next hrefused =>
                rw [if_neg hrefused]
                exact Job.ends_remark_bind hrest
        obtain ⟨reply, rfl, rfl, rfl⟩ := ih hnodup' hmore
        refine ⟨tell reply slot value?, ?_, ?_, rfl⟩
        · rw [List.flatMap_cons, flatMap_lookCycles_tell hfresh, tell, if_pos rfl]
        · rw [withReplies_cons hfresh]
      · obtain ⟨_, -, habsurd, -⟩ := ends_probe hoffset hlook
        cases habsurd
      · obtain ⟨_, -, habsurd, -⟩ := ends_probe hoffset hlook
        cases habsurd

theorem ends_discover (hoffset : offset ≤ Register.engineStatus) {s s' : σ} {cycles : List Access}
    {out : Outcome ε Registry}
    (h : (discover offset accept : Job σ ε Registry).Ends s cycles out s') :
    ∃ reply : Slot → Option UInt32,
      cycles = Slot.all.flatMap (fun slot => lookCycles offset slot (reply slot)) ∧
      out = .ok ⟨fun slot => if (reply slot).any accept = true then some slot.base else none⟩ ∧
      s' = s := by
  obtain ⟨reply, hcycles, hout, hs⟩ := ends_discoverIn hoffset Slot.nodup_all h
  refine ⟨reply, hcycles, hout.trans ?_, hs⟩
  simp only [withReplies, Slot.mem_all, true_and]
  rfl

end Registry

/-! ## Parts of a run -/

namespace Dialogue

variable {I : Interface} {ω α β : Type} {handler : Handler I ω}

theorem turns_bind (d : Dialogue I α) (f : α → Dialogue I β) (w : ω) :
    (d.bind f).turns handler w =
      d.turns handler w ++ (f (d.run handler w).1).turns handler (d.run handler w).2 := by
  induction d generalizing w with
  | done a => rfl
  | ask r next ih => exact congrArg (_ :: ·) (ih _ _)

end Dialogue

namespace Host.Run

variable {ω σ ε α β : Type} {handler : Handler workstation ω} {w w' : ω}

def engineOf (handler : Handler workstation ω) : Handler Reflash.engine ω :=
  fun r => handler (.engine r)

theorem run_embed_engine (d : Exchange α) (w : ω) :
    (d.embed (J := workstation) .engine fun _ answer => answer).run handler w =
      d.run (engineOf handler) w := by
  induction d generalizing w with
  | done a => rfl
  | ask r next ih => exact ih _ _

theorem engineTurns_embed (d : Exchange α) (w : ω) :
    engineTurns ((d.embed (J := workstation) .engine fun _ answer => answer).turns handler w) =
      d.turns (engineOf handler) w := by
  induction d generalizing w with
  | done a => rfl
  | ask r next ih => exact congrArg (_ :: ·) (ih _ _)

/-- With this handler the run ends so, and the update engine takes these turns in it. -/
structure Takes (handler : Handler workstation ω) (r : Run α) (w : ω) (out : Outcome RunError α)
    (turns : List (Turn Reflash.engine)) (w' : ω) : Prop where
  run_eq : (r ()).run handler w = ((out, ()), w')
  turns_eq : engineTurns ((r ()).turns handler w) = turns

theorem takes_pure (a : α) : Takes handler (pure a) w (.ok a) [] w := ⟨rfl, rfl⟩

theorem Takes.bind {r : Run α} {f : α → Run β} {a : α} {out : Outcome RunError β} {w₁ : ω}
    {turns turns' : List (Turn Reflash.engine)} (hr : r.Takes handler w (.ok a) turns w₁)
    (hf : (f a).Takes handler w₁ out turns' w') :
    Takes handler (r >>= f) w out (turns ++ turns') w' where
  run_eq := (Routine.run_bind_ok hr.run_eq).trans hf.run_eq
  turns_eq := by
    rw [Routine.bind_eq, Routine.bind, Dialogue.turns_bind, engineTurns_append, hr.turns_eq,
      hr.run_eq]
    exact congrArg (turns ++ ·) hf.turns_eq

theorem takes_engine {job : Job σ ε α} {s s' : σ} {a : α}
    (h : (job s).run (engineOf handler) w = ((.ok a, s'), w')) :
    (engine job s).Takes handler w (.ok (.ok a, s')) ((job s).turns (engineOf handler) w) w' where
  run_eq := by
    refine (Dialogue.run_bind handler _ _ w).trans ?_
    rw [Routine.embed, run_embed_engine, h]
    rfl
  turns_eq := by
    refine (congrArg engineTurns (Dialogue.turns_bind _ _ w)).trans ?_
    rw [Routine.embed, engineTurns_append, engineTurns_embed, run_embed_engine, h]
    exact List.append_nil _

theorem takes_must {wrap : ε → RunError} {job : Job σ ε α} {s s' : σ} {a : α}
    (h : (job s).run (engineOf handler) w = ((.ok a, s'), w')) :
    (must wrap job s).Takes handler w (.ok (a, s')) ((job s).turns (engineOf handler) w) w' := by
  rw [← List.append_nil ((job s).turns (engineOf handler) w)]
  exact (takes_engine h).bind ((takes_pure a).bind (takes_pure (a, s')))

theorem takes_always {job : Job Unit Empty α} {a : α}
    (h : (job ()).run (engineOf handler) w = ((.ok a, ()), w')) :
    (always job).Takes handler w (.ok a) ((job ()).turns (engineOf handler) w) w' := by
  rw [← List.append_nil ((job ()).turns (engineOf handler) w)]
  exact (takes_must h).bind (takes_pure a)

theorem takes_remark (handler : Handler workstation ω) (w : ω) (r : Remark) :
    ∃ w', (remark r).Takes handler w (.ok ()) [⟨.remark r, ()⟩] w' :=
  ⟨_, takes_always rfl⟩

end Host.Run

/-! ## What the tool works with -/

namespace Host.Order

open Run

def workOn (o : Order) (registry : Registry) : Mode → Run Unit
  | .all => o.updateAll registry
  | .single operation => do
    let n ← Routine.ofExcept (o.arguments.slotNumber.mapError .badArguments)
    let board ← Routine.ofExcept ((registry.resolve n).mapError .badSlot)
    o.perform board operation

theorem run_eq (o : Order) (mode : Mode) :
    o.run mode = o.findBoards >>= fun registry => o.workOn registry mode := by
  cases mode with
  | all => rfl
  | single operation => exact o.run_single operation

/-- The tool works with what its search ends with, and not at all without boards. -/
theorem run_of_findBoards {ω : Type} (o : Order) (mode : Mode) {handler : Handler workstation ω}
    {w w' : ω} {registry : Registry}
    (h : (o.findBoards ()).run handler w =
      ((if registry.isEmpty = true then .failed .noBoards else .ok registry, ()), w')) :
    (o.run mode ()).run handler w =
      if registry.isEmpty = true then ((.failed .noBoards, ()), w')
      else (o.workOn registry mode ()).run handler w' := by
  rw [run_eq]
  cases hempty : registry.isEmpty with
  | true =>
      rw [if_pos hempty] at h
      exact Routine.run_bind_failed h
  | false =>
      rw [hempty, if_neg Bool.false_ne_true] at h
      exact Routine.run_bind_ok h

/-- The boards whose reply to the search is accepted and whose slot is looked at. -/
def foundIn (o : Order) (reply : Slot → Option UInt32) : Registry :=
  ⟨fun slot =>
    if (reply slot).any isFlashAdc = true ∧ (o.config.slots = [] ∨ slot ∈ o.config.slots) then
      some slot.base
    else none⟩

theorem restrict_eq_foundIn (o : Order) (reply : Slot → Option UInt32) :
    Registry.restrict
        ⟨fun slot => if (reply slot).any isFlashAdc = true then some slot.base else none⟩
        o.config.covers = o.foundIn reply := by
  unfold Registry.restrict foundIn
  congr 1
  funext slot
  have hcovers : o.config.covers slot = true ↔ o.config.slots = [] ∨ slot ∈ o.config.slots := by
    rw [CrateConfig.covers, Bool.or_eq_true, List.isEmpty_iff, List.contains_iff_mem]
  by_cases hslot : o.config.covers slot = true
  · rw [if_pos hslot]
    simp only [hcovers.mp hslot, and_true]
  · rw [if_neg hslot, if_neg fun h => hslot (hcovers.mpr h.2)]

/-- Whatever the bus answers, the search looks at every slot once, and ends with a registry of those
that the configuration covers, or with an error if there are none. -/
theorem takes_findBoards {ω : Type} (o : Order) (handler : Handler workstation ω) (w : ω) :
    ∃ (reply : Slot → Option UInt32) (turns : List (Turn Reflash.engine)) (w' : ω),
      cyclesOf turns =
        Slot.all.flatMap (fun slot =>
          Registry.lookCycles Register.boardId slot (reply slot)) ∧
      o.findBoards.Takes handler w
        (if (o.foundIn reply).isEmpty = true then .failed .noBoards else .ok (o.foundIn reply))
        turns w' := by
  let search : Job Unit Empty Registry := Registry.discover Register.boardId isFlashAdc
  let turns := (search ()).turns (engineOf handler) w
  have hplays := Dialogue.plays_turns (engineOf handler) (search ()) w
  obtain ⟨reply, hcycles, hout, -⟩ :=
    Registry.ends_discover (by decide) (show search.Ends () _ _ _ from ⟨_, hplays, rfl⟩)
  obtain ⟨w₁, hsearch⟩ : ∃ w₁, (search ()).run (engineOf handler) w =
      ((.ok ⟨fun slot => if (reply slot).any isFlashAdc = true then some slot.base else none⟩, ()),
        w₁) := ⟨_, by rw [← hout]⟩
  have htakes := takes_always hsearch
  refine ⟨reply, ?_⟩
  rw [findBoards_eq]
  cases hempty : (o.foundIn reply).isEmpty with
  | true =>
      refine ⟨turns ++ [], w₁, ?_, htakes.bind ?_⟩
      · rw [List.append_nil]
        exact hcycles
      · dsimp only
        rw [restrict_eq_foundIn, if_pos hempty]
        exact ⟨rfl, rfl⟩
  | false =>
      let note : Remark := .boardsFound (o.foundIn reply).size (o.foundIn reply).mask
      obtain ⟨w', hremark⟩ := takes_remark handler w₁ note
      refine ⟨turns ++ ([⟨.remark note, ()⟩] ++ []), w', ?_, htakes.bind ?_⟩
      · rw [cyclesOf_append, hcycles]
        exact List.append_nil _
      · dsimp only
        rw [restrict_eq_foundIn, hempty, if_neg Bool.false_ne_true, if_neg Bool.false_ne_true]
        exact hremark.bind (takes_pure _)

/-- The tool looks at each slot of the crate once, in ascending order, with a probe that is followed
by a read exactly if it is answered, and with nothing else. It works with the slots whose reply is
accepted and that the configuration covers, each at its geographic address; the filter cannot fail,
and the only error is that no board is left. Whatever a registry is built from, a slot number other
than zero names the last board that was inserted in that slot, and zero the one in the lowest slot;
the boards are the last inserts, in ascending order of their slots. -/
theorem works_with_what_answers {ω : Type} (o : Order) (mode : Mode)
    (handler : Handler workstation ω) (w : ω) (inserts : List (Slot × UInt32)) :
    (∃ (reply : Slot → Option UInt32) (registry : Registry) (w' : ω),
      (∀ slot base, registry.base? slot = some base ↔
        (∃ value, reply slot = some value ∧ isFlashAdc value = true) ∧
          (o.config.slots = [] ∨ slot ∈ o.config.slots) ∧
            base = (slot.number * 0x80000).toUInt32) ∧
      cyclesOf (engineTurns ((o.findBoards ()).turns handler w)) =
        Slot.all.flatMap (fun slot =>
          let address := (slot.number * 0x80000).toUInt32 + Register.boardId
          (reply slot).elim [.probe address false] fun value =>
            [.probe address true, .read address value]) ∧
      (o.findBoards ()).run handler w =
        ((if registry.isEmpty = true then .failed .noBoards else .ok registry, ()), w') ∧
      (o.run mode ()).run handler w =
        if registry.isEmpty = true then ((.failed .noBoards, ()), w')
        else (o.workOn registry mode ()).run handler w') ∧
    Slot.all.map Slot.number = List.range' 1 21 ∧
    let r := Registry.ofInserts inserts
    (inserts = [] → r.resolve 0 = .error .emptyCrate) ∧
    (∀ before slot base after, inserts = before ++ (slot, base) :: after →
      slot ∉ after.map Prod.fst →
        r.resolve slot.number = .ok ⟨slot, base⟩ ∧
        ((∀ p ∈ inserts, slot.number ≤ p.1.number) → r.resolve 0 = .ok ⟨slot, base⟩)) ∧
    (∀ slot, slot ∉ inserts.map Prod.fst → r.resolve slot.number = .error (.vacant slot)) ∧
    (∀ n, 21 < n → r.resolve n = .error (.outOfRange n)) ∧
    (∀ slot, slot ∈ r.boards.map Board.slot ↔ slot ∈ inserts.map Prod.fst) ∧
    (∀ board, board ∈ r.boards ↔ Registry.LastInsert inserts board.slot board.base) ∧
    r.boards.Pairwise fun b b' => b.slot.number < b'.slot.number := by
  refine ⟨?_, by decide, ?_, ?_, ?_, ?_, ?_, ?_, ?_⟩
  · obtain ⟨reply, turns, w', hcycles, htakes⟩ := o.takes_findBoards handler w
    refine ⟨reply, o.foundIn reply, w', fun slot base => ?_, ?_, htakes.run_eq,
      o.run_of_findBoards mode htakes.run_eq⟩
    · rw [foundIn, ← Slot.base_eq, Option.ite_none_right_eq_some, Option.any_eq_true, and_assoc,
        Option.some.injEq, eq_comm (a := base)]
    · rw [htakes.turns_eq, hcycles]
      simp only [← Slot.base_eq]
      refine congrArg List.flatten (List.map_congr_left fun slot _ => ?_)
      cases reply slot <;> rfl
  · rintro rfl
    rfl
  · exact fun before slot base after heq hafter =>
      have hlast : Registry.LastInsert inserts slot base := ⟨before, after, heq, hafter⟩
      ⟨Registry.resolve_ofInserts hlast, Registry.resolve_zero_ofInserts hlast⟩
  · exact fun slot => Registry.resolve_ofInserts_of_not_mem
  · exact fun n => Registry.resolve_of_gt _
  · exact fun slot => Registry.mem_slots_ofInserts
  · exact fun board => Registry.mem_boards.trans Registry.base?_ofInserts
  · exact Registry.pairwise_boards _

end Host.Order
end Reflash
