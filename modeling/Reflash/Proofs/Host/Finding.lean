import Reflash.Proofs.Host.Machine
import Reflash.Proofs.Registry
import Reflash.Proofs.Simulation.Outline
/-!
# How the tool gets at a board

Before the tool works on a board it looks for all boards there are, and takes the one that the
arguments name. On simulated boards this succeeds for a slot exactly if there is a board in it that
is not away and that the configuration covers, and the search leaves that board as it was.
-/

namespace Reflash.Host

theorem Arguments.slotNumber_ne_zero {a : Arguments} {n : Nat} (haddress : a.address ≠ 0)
    (h : a.slotNumber = .ok n) : n ≠ 0 := by
  unfold slotNumber at h
  split at h
  next =>
    cases h
    exact haddress
  next =>
    split at h
    next slot _ =>
      cases h
      exact Nat.ne_of_gt slot.one_le
    next => cases h

/-- The address names the slot: by its number, by its base address, or, if it is zero, as the
lowest of some slots. -/
def Arguments.Names (a : Arguments) (slots : Slot → Prop) (slot : Slot) : Prop :=
  a.address = slot.number ∨ a.address = slot.base.toNat ∨
    a.address = 0 ∧ ∀ other, slots other → slot.number ≤ other.number

theorem Arguments.names_of_slotNumber {a : Arguments} {slots : Slot → Prop} {slot : Slot}
    (h : a.slotNumber = .ok slot.number) : a.Names slots slot := by
  unfold slotNumber at h
  split at h
  next => exact .inl (Except.ok.inj h)
  next =>
    split at h
    next found hfind =>
      obtain rfl := Slot.number_inj (Except.ok.inj h)
      have haddress : found.base.toNat = a.address := by simpa using List.find?_some hfind
      exact .inr (.inl haddress.symm)
    next => cases h

theorem Arguments.names_of_resolve {a : Arguments} {registry : Registry} {n : Nat} {board : Board}
    (hn : a.slotNumber = .ok n) (hboard : registry.resolve n = .ok board) :
    registry.base? board.slot = some board.base ∧
      a.Names (fun slot => ∃ base, registry.base? slot = some base) board.slot := by
  by_cases hzero : n = 0
  · subst hzero
    obtain ⟨hbase, hlowest⟩ := Registry.base?_of_resolve_zero hboard
    have haddress : a.address = 0 :=
      Classical.byContradiction fun haddress => slotNumber_ne_zero haddress hn rfl
    refine ⟨hbase, .inr (.inr ⟨haddress, ?_⟩)⟩
    rintro other ⟨base, hother⟩
    exact hlowest other base hother
  · obtain ⟨rfl, hbase⟩ := Registry.base?_of_resolve hzero hboard
    exact ⟨hbase, names_of_slotNumber hn⟩

theorem Arguments.exists_resolve {a : Arguments} {registry : Registry} {slot : Slot}
    {base : UInt32} (hbase : registry.base? slot = some base)
    (h : a.Names (fun slot => ∃ base, registry.base? slot = some base) slot) :
    ∃ n, a.slotNumber = .ok n ∧ registry.resolve n = .ok ⟨slot, base⟩ := by
  have hcount : slot.number ≤ slotCount := slot.le_count
  obtain haddress | haddress | ⟨haddress, hlowest⟩ := h
  · refine ⟨slot.number, ?_, Registry.resolve_number hbase⟩
    rw [slotNumber, haddress, if_pos hcount]
  · refine ⟨slot.number, ?_, Registry.resolve_number hbase⟩
    have hwindow : slot.base.toNat = slot.number * 524288 := slot.toNat_base
    have hlarge : ¬a.address ≤ slotCount := by
      have hone := slot.one_le
      unfold slotCount
      omega
    rw [slotNumber, if_neg hlarge]
    cases hfind : Slot.all.find? fun slot => slot.base.toNat = a.address with
    | none =>
        have habsent := List.find?_eq_none.mp hfind slot slot.mem_all
        exact absurd (decide_eq_true haddress.symm) habsent
    | some found =>
        have hfound : found.base.toNat = a.address := by simpa using List.find?_some hfind
        have hwindow' : found.base.toNat = found.number * 524288 := found.toNat_base
        have hnumber : found.number = slot.number := by omega
        exact congrArg Except.ok hnumber
  · refine ⟨0, ?_, Registry.resolve_zero hbase fun other base' hother =>
      hlowest other ⟨base', hother⟩⟩
    rw [slotNumber, haddress, if_pos (Nat.zero_le _)]

theorem Arguments.file_of_neededFile {a : Arguments} {path : String}
    (h : a.neededFile = .ok path) : a.file = some path := by
  unfold neededFile at h
  split at h
  next file hfile =>
    cases h
    exact hfile
  next => cases h

theorem Run.ends_always {α : Type} {job : Job Unit Empty α} {a : α} {files : Files}
    {c c' : SimulatedCrate} (h : (job ()).run Bus.handler c = ((.ok a, ()), c')) :
    (Run.always job).Ends files c (.ok a) files c' :=
  (ends_must h).bind fun desk => ⟨desk, rfl⟩

theorem Run.ends_remark (r : Remark) (files : Files) (c : SimulatedCrate) :
    (Run.remark r).Ends files c (.ok ()) files c :=
  ends_always rfl

namespace Order

variable {o : Order} {files : Files} {c : SimulatedCrate} {slot : Slot} {b : SimulatedBoard}
  {operation : Operation}

/-- The filter never fails: it only looks up slots that have just been listed. -/
theorem covered_eq (o : Order) (found : Registry) :
    o.covered found = .ok (found.restrict o.config.covers) := by
  unfold covered
  split
  next hall =>
    have hcovers : o.config.covers = fun _ => true := funext fun slot => by
      rw [CrateConfig.covers, hall, Bool.true_or]
    rw [hcovers]
    rfl
  next hsome =>
    have hcovers : o.config.covers = o.config.slots.contains := funext fun slot => by
      rw [CrateConfig.covers, Bool.eq_false_iff.mpr hsome, Bool.false_or]
    rw [hcovers, Registry.select_eq]

theorem findBoards_eq (o : Order) :
    o.findBoards = (do
      let found ← Run.always (Registry.discover Register.boardId isFlashAdc)
      let registry := found.restrict o.config.covers
      if registry.isEmpty then
        Routine.fail .noBoards
      Run.remark (.boardsFound registry.size registry.mask)
      return registry) := by
  rw [findBoards]
  simp only [covered_eq]
  rfl

/-- What the tool finds: every board that is not away and that the configuration covers. -/
theorem ends_findBoards (o : Order) (files : Files) (c : SimulatedCrate) :
    ∃ registry c₁,
      o.findBoards.Ends files c (if registry.isEmpty then .failed .noBoards else .ok registry)
        files c₁ ∧
      (∀ slot, registry.base? slot =
        if o.config.covers slot = true ∧ c.isFound Register.boardId isFlashAdc slot = true then
          some slot.base
        else none) ∧
      ∀ slot, c₁.board? slot = (c.board? slot).map fun b => (b.probed Register.boardId).2 := by
  have hid : Register.boardId ≤ Register.engineStatus := by decide
  obtain ⟨found, c₁, hdiscover, hfound, hboards⟩ := Registry.run_discover_eq hid isFlashAdc () c
  refine ⟨found.restrict o.config.covers, c₁, ?_, fun slot => ?_, hboards⟩
  · rw [findBoards_eq]
    refine (Run.ends_always hdiscover).bind ?_
    dsimp only
    split
    · exact Run.ends_fail .noBoards
    · exact (Run.ends_remark _ files c₁).bind (Run.ends_ofExcept _)
  · rw [Registry.base?_restrict, hfound]
    by_cases hcovers : o.config.covers slot = true <;> simp [hcovers]

def perform (o : Order) (board : Board) : Operation → Run Unit
  | .program => o.program board
  | .save => o.save board
  | .verify => o.verify board
  | .id => o.identify board

theorem run_single (o : Order) (operation : Operation) :
    o.run (.single operation) = (do
      let registry ← o.findBoards
      let n ← Routine.ofExcept (o.arguments.slotNumber.mapError .badArguments)
      let board ← Routine.ofExcept ((registry.resolve n).mapError .badSlot)
      o.perform board operation) := by
  cases operation <;> rfl

/-- The board in the slot is the one that the arguments name, and the tool finds it. -/
structure Finds (o : Order) (c : SimulatedCrate) (slot : Slot) (b : SimulatedBoard) : Prop where
  named : o.arguments.slotNumber = .ok slot.number
  there : c.board? slot = some b
  back : b.rebooting = 0
  covered : o.config.covers slot = true

theorem alike_probed_boardId (h : b.rebooting = 0) : Alike (b.probed Register.boardId).2 b := by
  rw [SimulatedBoard.probed, if_pos h, b.read_boardId]
  rfl

structure Answers (o : Order) (c : SimulatedCrate) (slot : Slot) (b : SimulatedBoard) : Prop where
  there : c.board? slot = some b
  back : b.rebooting = 0
  covered : o.config.covers slot = true

/-- The arguments name the slot, by any of the ways to do so, and it has a board that the tool
finds. -/
structure Reaches (o : Order) (c : SimulatedCrate) (slot : Slot) (b : SimulatedBoard) : Prop
    extends o.Answers c slot b where
  named : o.arguments.Names (fun slot => ∃ b, o.Answers c slot b) slot

theorem Finds.reaches (h : o.Finds c slot b) : o.Reaches c slot b where
  there := h.there
  back := h.back
  covered := h.covered
  named := Arguments.names_of_slotNumber h.named

theorem Reaches.ends_run (h : o.Reaches c slot b) :
    ∃ c₁ b₁, c₁.board? slot = some b₁ ∧ Alike b₁ b ∧
      ∀ {operation out files' c'},
        (o.perform (.geographic slot) operation).Ends files c₁ out files' c' →
          (o.run (.single operation)).Ends files c out files' c' := by
  obtain ⟨registry, c₁, hfinds, hbase, hboards⟩ := o.ends_findBoards files c
  have hanswers : ∀ {slot b}, o.Answers c slot b → registry.base? slot = some slot.base := by
    intro slot b hslot
    rw [hbase, SimulatedCrate.isFound_boardId hslot.there, decide_eq_true hslot.back,
      if_pos ⟨hslot.covered, rfl⟩]
  have hlisted : (fun slot => ∃ base, registry.base? slot = some base) =
      fun slot => ∃ b, o.Answers c slot b := by
    funext slot
    refine propext ⟨?_, fun ⟨b, hslot⟩ => ⟨_, hanswers hslot⟩⟩
    rintro ⟨base, hslot⟩
    rw [hbase] at hslot
    split at hslot
    next hcond =>
      obtain ⟨b, hb, hback⟩ := SimulatedCrate.exists_of_isFound_boardId hcond.2
      exact ⟨b, hb, hback, hcond.1⟩
    next => cases hslot
  have hslot := hanswers h.toAnswers
  obtain ⟨n, hn, hresolve⟩ := Arguments.exists_resolve hslot (hlisted ▸ h.named)
  rw [Registry.isEmpty_eq_false hslot] at hfinds
  refine ⟨c₁, (b.probed Register.boardId).2, ?_, alike_probed_boardId h.back, fun hperform => ?_⟩
  · rw [hboards, h.there, Option.map_some]
  · rw [run_single, hn]
    refine Run.Ends.bind hfinds (Run.Ends.bind (Run.ends_ofExcept n) ?_)
    rw [hresolve]
    exact Run.Ends.bind (Run.ends_ofExcept (Board.geographic slot)) hperform

theorem Finds.ends_run (h : o.Finds c slot b) :
    ∃ c₁ b₁, c₁.board? slot = some b₁ ∧ Alike b₁ b ∧
      ∀ {operation out files' c'},
        (o.perform (.geographic slot) operation).Ends files c₁ out files' c' →
          (o.run (.single operation)).Ends files c out files' c' :=
  h.reaches.ends_run

/-- Where a board is named by an address, an operation only succeeds on a board that is found. -/
theorem finds_of_run {m m' : Machine} (haddress : o.arguments.address ≠ 0)
    (hbus : m.bus = .inr (.ofCrate c))
    (hrun : m.run (o.run (.single operation)) = (.ok (), m')) :
    ∃ slot b, o.Finds c slot b ∧
      ∃ (m₁ : Machine) (c₁ : SimulatedCrate) (b₁ : SimulatedBoard),
        m₁.files = m.files ∧ m₁.bus = .inr (.ofCrate c₁) ∧ c₁.board? slot = some b₁ ∧
        Alike b₁ b ∧
        m₁.run (o.perform (.geographic slot) operation) = (.ok (), m') := by
  rw [run_single] at hrun
  obtain ⟨registry', m₁, hfind, hrest⟩ := Machine.ok_of_run_bind hrun
  obtain ⟨registry, c₁, hfinds, hbase, hboards⟩ := o.ends_findBoards m.files c
  obtain ⟨hregistry, hfiles, hbus₁⟩ := hfinds.eq_of_run rfl hbus hfind
  obtain rfl : registry' = registry := by
    split at hregistry
    · cases hregistry
    · cases hregistry
      rfl
  obtain ⟨n, hn, hrest⟩ := Machine.ok_of_run_ofExcept_bind hrest
  obtain ⟨⟨slot, base⟩, hboard, hperform⟩ := Machine.ok_of_run_ofExcept_bind hrest
  have hnumber := Arguments.slotNumber_ne_zero haddress hn
  obtain ⟨rfl, hslot⟩ := Registry.base?_of_resolve hnumber hboard
  rw [hbase] at hslot
  split at hslot
  next hcond =>
    obtain ⟨hcovered, hfound⟩ := hcond
    obtain ⟨b, hb, hback⟩ := SimulatedCrate.exists_of_isFound_boardId hfound
    obtain rfl : slot.base = base := Option.some.inj hslot
    refine ⟨slot, b, ⟨hn, hb, hback, hcovered⟩, m₁, c₁, _, hfiles, hbus₁, ?_,
      alike_probed_boardId hback, hperform⟩
    rw [hboards, hb, Option.map_some]
  next => cases hslot

end Order
end Reflash.Host
