import Reflash.Proofs.Heeding
import Reflash.Proofs.Registry
import Reflash.Proofs.Update.CrateConduct
/-!
# Boards found by their answers

Which boards a search finds is told by its bus cycles alone: those whose register answered a probe
and was then read with a value that is accepted. What is asked of a board later never reads or
probes the register that boards are found by, so who has been found stays settled.
-/

namespace Reflash

theorem Job.heeds_ask {σ ε : Type} {r : Request} {allowed : List (Turn engine) → Request → Prop}
    {before : List (Turn engine) → σ → Prop} {after : r.Answer → List (Turn engine) → σ → Prop}
    (hr : ∀ past s, before past s → allowed past r)
    (hafter : ∀ past s answer, before past s → after answer (past ++ [⟨r, answer⟩]) s) :
    (Job.ask r : Job σ ε r.Answer).Heeds allowed before after :=
  .request hr hafter

namespace Slot

variable {slot other : Slot} {offset offset' : UInt32} {accept : UInt32 → Bool}
  {past more : List Access}

/-- In these cycles the slot's register at an offset answered a probe, and a read of it brought a
value that is accepted. -/
def IsFoundIn (slot : Slot) (offset : UInt32) (accept : UInt32 → Bool) (cycles : List Access) :
    Prop :=
  .probe (slot.base + offset) true ∈ cycles ∧
    ∃ value, accept value = true ∧ .read (slot.base + offset) value ∈ cycles

/-- The address of a register belongs to one slot, and to one offset there. -/
theorem base_add_inj (hoffset : offset ≤ Register.engineStatus)
    (hoffset' : offset' ≤ Register.engineStatus) (h : slot.base + offset = other.base + offset') :
    slot = other ∧ offset = offset' := by
  have hslot := slot.ofAddress?_register hoffset
  rw [h, other.ofAddress?_register hoffset'] at hslot
  obtain rfl := Option.some.inj hslot
  exact ⟨rfl, (UInt32.add_right_inj _).mp h⟩

theorem isFoundIn_append (h : ∀ cycle ∈ more, cycle.address ≠ slot.base + offset) :
    slot.IsFoundIn offset accept (past ++ more) ↔ slot.IsFoundIn offset accept past := by
  have hmem : ∀ cycle : Access, cycle.address = slot.base + offset →
      (cycle ∈ past ++ more ↔ cycle ∈ past) := by
    intro cycle hcycle
    rw [List.mem_append, or_iff_left fun hmore => h cycle hmore hcycle]
  simp only [IsFoundIn, hmem (.probe (slot.base + offset) true) rfl,
    fun value => hmem (.read (slot.base + offset) value) rfl]

end Slot

/-! ## The search -/

namespace Registry

variable {σ ε : Type} {found : Registry} {slot : Slot} {slots : List Slot} {offset : UInt32}
  {accept : UInt32 → Bool} {past more : List Access}

/-- What is known while some slots are still to be searched. -/
structure Searches (offset : UInt32) (accept : UInt32 → Bool) (slots : List Slot)
    (found : Registry) (past : List Access) : Prop where
  base?_iff : ∀ slot base, found.base? slot = some base ↔
    base = slot.base ∧ slot.IsFoundIn offset accept past
  fresh : ∀ slot ∈ slots, ∀ cycle ∈ past, cycle.address ≠ slot.base + offset

theorem Searches.nil : Searches offset accept slots empty [] where
  base?_iff _ _ := iff_of_false nofun fun h => absurd h.2.1 List.not_mem_nil
  fresh _ _ _ := nofun

section Search

variable (hoffset : offset ≤ Register.engineStatus) (hfresh : slot ∉ slots)
  (h : Searches offset accept (slot :: slots) found past)
include hoffset hfresh h

theorem Searches.fresh_append (hmore : ∀ cycle ∈ more, cycle.address = slot.base + offset) :
    ∀ other ∈ slots, ∀ cycle ∈ past ++ more, cycle.address ≠ other.base + offset := by
  intro other hother cycle hcycle
  rcases List.mem_append.mp hcycle with hpast | hcycle
  · exact h.fresh other (List.mem_cons_of_mem slot hother) cycle hpast
  · rw [hmore cycle hcycle]
    intro heq
    obtain ⟨rfl, -⟩ := Slot.base_add_inj hoffset hoffset heq
    exact hfresh hother

theorem Searches.missed :
    Searches offset accept slots found (past ++ [.probe (slot.base + offset) false]) where
  base?_iff other base := by
    rw [h.base?_iff other base]
    simp [Slot.IsFoundIn]
  fresh := h.fresh_append hoffset hfresh (by simp [Access.address])

theorem Searches.seen (value : UInt32) :
    Searches offset accept slots
      (if accept value = true then found.insert slot slot.base else found)
      (past ++ [.probe (slot.base + offset) true, .read (slot.base + offset) value]) where
  base?_iff other base := by
    by_cases hother : other = slot
    · subst hother
      have hnone : found.base? other ≠ some base := by
        rw [ne_eq, h.base?_iff]
        exact fun hfound => h.fresh other List.mem_cons_self _ hfound.2.1 rfl
      have hunread : ∀ value', Access.read (other.base + offset) value' ∉ past :=
        fun value' hmem => h.fresh other List.mem_cons_self _ hmem rfl
      by_cases haccept : accept value = true
      · simp [Slot.IsFoundIn, hunread, haccept, base?_insert, eq_comm (a := base)]
      · simp [Slot.IsFoundIn, hunread, haccept, hnone]
    · have hsame : (if accept value = true then found.insert slot slot.base else found).base?
          other = found.base? other := by
        split
        · rw [base?_insert, if_neg hother]
        · rfl
      have helsewhere : slot.base + offset ≠ other.base + offset :=
        fun heq => hother (Slot.base_add_inj hoffset hoffset heq).1.symm
      rw [hsame, Slot.isFoundIn_append (by simpa [Access.address] using helsewhere)]
      exact h.base?_iff other base
  fresh := h.fresh_append hoffset hfresh (by simp [Access.address])

end Search

theorem cyclesOf_concat (turns : List (Turn engine)) (r : Request) (answer : r.Answer) :
    cyclesOf (turns ++ [⟨r, answer⟩]) = cyclesOf turns ++ (Access.of? r answer).toList := by
  rw [cyclesOf_append, cyclesOf_cons, cyclesOf_nil, List.append_nil]

theorem heeds_probe (hoffset : offset ≤ Register.engineStatus) (hfresh : slot ∉ slots) :
    ((Board.geographic slot).probe offset : Job σ ε (Option UInt32)).Heeds
      (fun _ => Request.IsLook)
      (fun turns _ => Searches offset accept (slot :: slots) found (cyclesOf turns))
      fun value? turns _ => Searches offset accept slots
        (if value?.any accept = true then found.insert slot slot.base else found)
        (cyclesOf turns) := by
  have hprobe : (Job.ask (.probe (slot.base + offset)) : Job σ ε Bool).Heeds
      (fun _ => Request.IsLook)
      (fun turns _ => Searches offset accept (slot :: slots) found (cyclesOf turns))
      fun answered turns _ => ∃ past, Searches offset accept (slot :: slots) found past ∧
        cyclesOf turns = past ++ [.probe (slot.base + offset) answered] :=
    Job.heeds_ask (fun _ _ _ => trivial) fun turns _ answered h =>
      ⟨_, h, cyclesOf_concat turns _ answered⟩
  rw [Board.probe, slot.fits_geographic.address_eq hoffset, pure_bind]
  refine .bind hprobe fun answered => ?_
  cases answered with
  | false =>
      refine .pure ?_
      rintro turns _ ⟨past, h, hturns⟩
      rw [hturns]
      exact h.missed hoffset hfresh
  | true =>
      have hread : (Job.ask (.read (slot.base + offset)) : Job σ ε UInt32).Heeds
          (fun _ => Request.IsLook)
          (fun turns _ => ∃ past, Searches offset accept (slot :: slots) found past ∧
            cyclesOf turns = past ++ [.probe (slot.base + offset) true])
          fun value turns _ => Searches offset accept slots
            (if accept value = true then found.insert slot slot.base else found)
            (cyclesOf turns) := by
        refine Job.heeds_ask (r := .read (slot.base + offset)) (fun _ _ _ => trivial)
          fun turns _ value => ?_
        rintro ⟨past, h, hturns⟩
        rw [cyclesOf_concat, hturns, List.append_assoc]
        exact h.seen hoffset hfresh value
      exact .bind hread fun value => .pure fun _ _ h => h

/-- A search writes nothing, and knows in the end who has been found. -/
theorem heeds_discoverIn (hoffset : offset ≤ Register.engineStatus) (hnodup : slots.Nodup)
    (found : Registry) :
    (discoverIn offset accept slots found : Job σ ε Registry).Heeds
      (fun _ => Request.IsLook)
      (fun turns _ => Searches offset accept slots found (cyclesOf turns))
      fun r turns _ => Searches offset accept [] r (cyclesOf turns) := by
  have hnote : ∀ (r : Remark) (slots : List Slot) (found : Registry),
      (Job.remark r : Job σ ε Unit).Heeds (fun _ => Request.IsLook)
        (fun turns _ => Searches offset accept slots found (cyclesOf turns))
        fun _ turns _ => Searches offset accept slots found (cyclesOf turns) := by
    intro r slots found
    refine Job.heeds_ask (r := .remark r) (fun _ _ _ => trivial) fun turns _ answer h => ?_
    rw [cyclesOf_concat]
    exact (List.append_nil _).symm ▸ h
  induction slots generalizing found with
  | nil => exact .pure fun _ _ h => h
  | cons slot rest ih =>
      obtain ⟨hfresh, hnodup'⟩ := List.nodup_cons.mp hnodup
      rw [discoverIn]
      refine .bind (heeds_probe hoffset hfresh) fun value? => ?_
      cases value? with
      | none => exact ih hnodup' found
      | some value =>
          dsimp only [Option.any_some]
          split
          · exact .bind (hnote _ _ _) fun _ => ih hnodup' _
          · exact .bind (hnote _ _ _) fun _ => ih hnodup' _

theorem heeds_discover (accept : UInt32 → Bool) (hoffset : offset ≤ Register.engineStatus) :
    (discover offset accept : Job σ ε Registry).Heeds (fun _ => Request.IsLook)
      (fun turns _ => cyclesOf turns = []) fun r turns _ => ∀ slot base, r.base? slot = some base ↔
        base = slot.base ∧ slot.IsFoundIn offset accept (cyclesOf turns) := by
  intro turns s hturns
  have hstart : Searches offset accept Slot.all empty (cyclesOf turns) := by
    rw [hturns]
    exact .nil
  have hsearch := heeds_discoverIn (σ := σ) (ε := ε) hoffset Slot.nodup_all empty turns s hstart
  exact hsearch.mono (fun _ _ => id) fun _ _ hresult r hr => (hresult r hr).base?_iff

/-- A search writes nothing, and what it finds is at the geographic addresses. -/
theorem gives_discover (accept : UInt32 → Bool) (hoffset : offset ≤ Register.engineStatus) :
    (discover offset accept : Job σ ε Registry).Gives Request.IsLook (fun _ => True) fun r _ =>
      ∀ b ∈ r.boards, b = .geographic b.slot := by
  intro s _
  have hsearch := heeds_discover (σ := σ) (ε := ε) accept hoffset [] s rfl
  refine (hsearch.mono (fun _ _ => id) fun _ _ hresult r hr => ?_).keeps
  rintro ⟨slot, base⟩ hb
  exact congrArg (Board.mk slot) ((hresult r hr slot base).mp (mem_boards.mp hb)).1

end Registry

theorem Board.Concerns.address?_ne {slot : Slot} {r : Request}
    (h : (Board.geographic slot).Concerns r) (other : Slot) :
    r.address? ≠ some (other.base + Register.boardId) := by
  have hne : ∀ offset ≤ Register.engineStatus, offset ≠ Register.boardId →
      some ((Board.geographic slot).base + offset) ≠ some (other.base + Register.boardId) := by
    intro offset hoffset hboardId heq
    have hboard : Register.boardId ≤ Register.engineStatus := by decide
    exact hboardId (Slot.base_add_inj hoffset hboard (Option.some.inj heq)).2
  obtain ((hdrives | rfl | rfl | rfl) | rfl) | rfl := h
  · cases r with
    | read address =>
        obtain rfl | rfl := hdrives
        · exact hne _ (by decide) (by decide)
        · exact hne _ (by decide) (by decide)
    | write address value =>
        obtain ⟨rfl, -⟩ | ⟨rfl, -⟩ | rfl := hdrives
        · exact hne _ (by decide) (by decide)
        · exact hne _ (by decide) (by decide)
        · exact hne _ (by decide) (by decide)
    | probe => exact hdrives.elim
    | pause | tick | remark | report => nofun
  all_goals exact hne _ (by decide) (by decide)

end Reflash
