import Reflash.Proofs.Update.Conduct
import Reflash.Simulation.Crate
/-!
# Boards of a simulated crate

Each slot decodes a window of its own, so what is asked of one board concerns no other. A dialogue
that stays in the window of one slot runs on a crate as it runs on the board in that slot alone.
-/

namespace Reflash

namespace Slot

theorem toNat_base (slot : Slot) : slot.base.toNat = slot.number * slotWindow := by
  have hcount := slot.le_count
  have hnumber : slot.number.toUInt32.toNat = slot.number := by
    show slot.number % 2 ^ 32 = slot.number
    omega
  have hlt : slot.number * 2 ^ 19 < 2 ^ 32 := by omega
  rw [base, UInt32.toNat_shiftLeft, hnumber, Nat.shiftLeft_eq]
  exact Nat.mod_eq_of_lt hlt

theorem ofNat?_number (slot : Slot) : ofNat? slot.number = some slot := by
  rw [ofNat?, dif_pos ⟨slot.one_le, slot.le_count⟩]

/-! The slots of the boards that serve as examples. -/

def third : Slot := (ofNat? 3).get rfl

def fourth : Slot := (ofNat? 4).get rfl

def fifth : Slot := (ofNat? 5).get rfl

theorem number_inj {slot slot' : Slot} (h : slot.number = slot'.number) : slot = slot' := by
  cases slot
  cases slot'
  cases h
  rfl

theorem index_inj {slot slot' : Slot} (h : slot.index = slot'.index) : slot = slot' := by
  have hindex : slot.number - 1 = slot'.number - 1 := congrArg Fin.val h
  have hone := slot.one_le
  have hone' := slot'.one_le
  exact number_inj (by omega)

theorem toNat_base_add (slot : Slot) {offset : UInt32} (h : offset.toNat < slotWindow) :
    (slot.base + offset).toNat = slot.number * slotWindow + offset.toNat := by
  have hcount := slot.le_count
  have hsum : slot.number * slotWindow + offset.toNat < 2 ^ 32 := by
    unfold slotWindow at h ⊢
    omega
  rw [UInt32.toNat_add, toNat_base, Nat.mod_eq_of_lt hsum]

theorem ofAddress?_base_add (slot : Slot) {offset : UInt32} (h : offset.toNat < slotWindow) :
    ofAddress? (slot.base + offset) = some slot := by
  have hdiv : (slot.number * slotWindow + offset.toNat) / slotWindow = slot.number := by
    unfold slotWindow at h ⊢
    omega
  rw [ofAddress?, toNat_base_add slot h, hdiv, ofNat?_number]

theorem ofAddress?_register (slot : Slot) {offset : UInt32} (h : offset ≤ Register.engineStatus) :
    ofAddress? (slot.base + offset) = some slot := by
  have hwindow : Register.engineStatus.toNat < slotWindow := by decide
  exact ofAddress?_base_add slot (Nat.lt_of_le_of_lt (UInt32.le_iff_toNat_le.mp h) hwindow)

theorem fits_geographic (slot : Slot) : (Board.geographic slot).Fits := by
  have hcount := slot.le_count
  have hbase : slot.base.toNat = slot.number * 524288 := toNat_base slot
  have hstatus : Register.engineStatus.toNat = 304 := rfl
  have hsize : UInt32.size = 4294967296 := rfl
  show slot.base.toNat + Register.engineStatus.toNat < UInt32.size
  omega

end Slot

namespace SimulatedCrate

variable {c : SimulatedCrate} {slot other : Slot} {b b' : SimulatedBoard}

theorem offset_base_add (slot : Slot) {offset : UInt32} (h : offset.toNat < slotWindow) :
    SimulatedCrate.offset (slot.base + offset) = offset := by
  have hmod : (slot.number * slotWindow + offset.toNat) % slotWindow = offset.toNat := by
    unfold slotWindow at h ⊢
    omega
  apply UInt32.toNat_inj.mp
  rw [SimulatedCrate.offset, UInt32.toNat_mod, Slot.toNat_base_add slot h]
  exact hmod

theorem offset_register (slot : Slot) {offset : UInt32} (h : offset ≤ Register.engineStatus) :
    SimulatedCrate.offset (slot.base + offset) = offset := by
  have hwindow : Register.engineStatus.toNat < slotWindow := by decide
  exact offset_base_add slot (Nat.lt_of_le_of_lt (UInt32.le_iff_toNat_le.mp h) hwindow)

@[simp]
theorem board?_insert_self (c : SimulatedCrate) (slot : Slot) (b : SimulatedBoard) :
    (c.insert slot b).board? slot = some b := by
  simp [board?, insert]

theorem board?_insert_of_ne (c : SimulatedCrate) (b : SimulatedBoard) (h : other ≠ slot) :
    (c.insert slot b).board? other = c.board? other := by
  have hindex : slot.index.val ≠ other.index.val := by
    intro heq
    exact h (Slot.index_inj (Fin.ext heq)).symm
  simp [board?, insert, Vector.getElem_set_ne, hindex]

theorem insert_insert (c : SimulatedCrate) (slot : Slot) (b b' : SimulatedBoard) :
    (c.insert slot b).insert slot b' = c.insert slot b' := by
  simp [insert]

theorem insert_of_board? (h : c.board? slot = some b) : c.insert slot b = c := by
  obtain ⟨boards⟩ := c
  have hget : boards[slot.index.val] = some b := h
  simp [insert, ← hget]

theorem modify_of_board? (h : c.board? slot = some b) (f : SimulatedBoard → SimulatedBoard) :
    c.modify slot f = c.insert slot (f b) := by
  simp [modify, insert, h]

theorem modify_of_vacant (h : c.board? slot = none) (f : SimulatedBoard → SimulatedBoard) :
    c.modify slot f = c := by
  obtain ⟨boards⟩ := c
  have hget : boards[slot.index.val] = none := h
  simp only [modify, h, Option.map_none, Vector.set_set]
  simp [← hget]

theorem board?_modify (c : SimulatedCrate) (slot other : Slot)
    (f : SimulatedBoard → SimulatedBoard) :
    (c.modify slot f).board? other =
      if other = slot then (c.board? slot).map f else c.board? other := by
  cases hb : c.board? slot with
  | none =>
      rw [modify_of_vacant hb]
      split
      next heq => rw [heq, hb, Option.map_none]
      next => rfl
  | some b =>
      rw [modify_of_board? hb, Option.map_some]
      split
      next heq => rw [heq, board?_insert_self]
      next hne => exact board?_insert_of_ne c _ hne

theorem decode?_of_board? {address : UInt32} (haddress : Slot.ofAddress? address = some slot)
    (h : c.board? slot = some b) : c.decode? address = some (slot, b) := by
  simp [decode?, haddress, h]

theorem board?_of_decode? {address : UInt32} (h : c.decode? address = some (slot, b)) :
    c.board? slot = some b := by
  rw [decode?] at h
  obtain ⟨found, -, h⟩ := Option.bind_eq_some_iff.mp h
  obtain ⟨b', hb', h⟩ := Option.bind_eq_some_iff.mp h
  obtain ⟨rfl, rfl⟩ := Prod.mk.injEq .. ▸ Option.some.inj h
  exact hb'

end SimulatedCrate

/-- A board with the bus to itself answers in every window. -/
instance : Bus SimulatedBoard where
  read b address := b.read (SimulatedCrate.offset address)
  write b address value := b.write (SimulatedCrate.offset address) value
  probe b _ := b.probe

def Request.InWindow (slot : Slot) : Request → Prop
  | .read address | .write address _ | .probe address => Slot.ofAddress? address = some slot
  | .pause _ | .tick | .remark _ | .report _ => True

namespace Board

theorem Owns.inWindow {slot : Slot} {r : Request} (h : (geographic slot).Owns r) :
    r.InWindow slot := by
  have hwindow : ∀ offset : UInt32, offset.toNat < slotWindow →
      Slot.ofAddress? ((geographic slot).base + offset) = some slot := fun offset =>
    Slot.ofAddress?_base_add slot
  obtain (hdrives | rfl | rfl | rfl) | rfl := h
  · cases r with
    | read address =>
        obtain rfl | rfl := hdrives
        · exact hwindow _ (by decide)
        · exact hwindow _ (by decide)
    | write address value =>
        obtain ⟨rfl, -⟩ | ⟨rfl, -⟩ | rfl := hdrives
        · exact hwindow _ (by decide)
        · exact hwindow _ (by decide)
        · exact hwindow _ (by decide)
    | probe address => exact hdrives.elim
    | pause | tick | remark | report => trivial
  · exact hwindow _ (by decide)
  · exact hwindow _ (by decide)
  · exact hwindow _ (by decide)
  · exact hwindow _ (by decide)

end Board

namespace SimulatedCrate

variable {c : SimulatedCrate} {slot : Slot} {b : SimulatedBoard}

theorem handler_of_inWindow {r : Request} (hr : r.InWindow slot) (hb : c.board? slot = some b) :
    Bus.handler r c = ((Bus.handler r b).1, c.insert slot (Bus.handler r b).2) := by
  cases r with
  | read address =>
      show c.read address = _
      rw [SimulatedCrate.read, decode?_of_board? hr hb]
      rfl
  | write address value =>
      show ((), c.write address value) = _
      have hslot : Slot.ofAddress? address = some slot := hr
      rw [SimulatedCrate.write, hslot]
      dsimp only
      rw [modify_of_board? hb]
      rfl
  | probe address =>
      show c.probe address = _
      rw [SimulatedCrate.probe, decode?_of_board? hr hb]
      rfl
  | pause | tick | remark | report => exact congrArg (Prod.mk ()) (insert_of_board? hb).symm

theorem board?_handler (r : Request) (c : SimulatedCrate) (slot : Slot) :
    (Bus.handler r c).2.board? slot = c.board? slot ∨
      (Bus.handler r c).2.board? slot = (c.board? slot).map fun b => (Bus.handler r b).2 := by
  have hinsert : ∀ {other : Slot} {b : SimulatedBoard} (f : SimulatedBoard → SimulatedBoard),
      c.board? other = some b →
        (c.insert other (f b)).board? slot = c.board? slot ∨
          (c.insert other (f b)).board? slot = (c.board? slot).map f := by
    intro other b f hb
    by_cases h : slot = other
    · subst h
      rw [board?_insert_self, hb]
      exact .inr rfl
    · exact .inl (board?_insert_of_ne c _ h)
  cases r with
  | read address =>
      show (c.read address).2.board? slot = _ ∨ (c.read address).2.board? slot = _
      rw [SimulatedCrate.read]
      split
      next heq => exact hinsert (fun b => (Bus.read b address).2) (board?_of_decode? heq)
      next => exact .inl rfl
  | write address value =>
      show (c.write address value).board? slot = _ ∨ (c.write address value).board? slot = _
      rw [SimulatedCrate.write]
      split
      next other _ =>
        cases hb : c.board? other with
        | none =>
            rw [modify_of_vacant hb]
            exact .inl rfl
        | some b =>
            rw [modify_of_board? hb]
            exact hinsert (fun b => Bus.write b address value) hb
      next => exact .inl rfl
  | probe address =>
      show (c.probe address).2.board? slot = _ ∨ (c.probe address).2.board? slot = _
      rw [SimulatedCrate.probe]
      split
      next heq => exact hinsert (fun b => (Bus.probe b address).2) (board?_of_decode? heq)
      next => exact .inl rfl
  | pause | tick | remark | report => exact .inl rfl

/-- What holds of the board in a slot, and is not lost in any cycle asked for, holds in the end. -/
theorem board?_run {α : Type} {d : Exchange α} {allowed : Request → Prop} {promised : α → Prop}
    (hd : d.Keeps allowed promised) {holds : SimulatedBoard → Prop}
    (hcycle : ∀ r b, allowed r → holds b → holds (Bus.handler r b).2)
    (hb : c.board? slot = some b) (hholds : holds b) :
    ∃ b', (d.run Bus.handler c).2.board? slot = some b' ∧ holds b' := by
  refine hd.run_preserves (fun c : SimulatedCrate => ∃ b, c.board? slot = some b ∧ holds b) ?_
    ⟨b, hb, hholds⟩
  rintro r c hr ⟨b, hb, hholds⟩
  obtain hsame | hstep := c.board?_handler r slot
  · exact ⟨b, hsame.trans hb, hholds⟩
  · rw [hb] at hstep
    exact ⟨_, hstep, hcycle r b hr hholds⟩

/-- In the window of one slot a crate behaves as the board in that slot, and keeps the others. -/
theorem run_of_inWindow {α : Type} {d : Exchange α} {promised : α → Prop}
    (hd : d.Keeps (Request.InWindow slot) promised) (hb : c.board? slot = some b) :
    d.run Bus.handler c = ((d.run Bus.handler b).1, c.insert slot (d.run Bus.handler b).2) := by
  induction d generalizing c b with
  | done a => exact congrArg (Prod.mk a) (insert_of_board? hb).symm
  | ask r next ih =>
      obtain ⟨hr, hnext⟩ := hd
      rw [Dialogue.run, handler_of_inWindow hr hb]
      dsimp only
      rw [ih _ (hnext _) (board?_insert_self ..), insert_insert]
      rfl

theorem run_of_owns {α : Type} {d : Exchange α} {promised : α → Prop}
    (hd : d.Keeps (Board.geographic slot).Owns promised) (hb : c.board? slot = some b) :
    d.run Bus.handler c = ((d.run Bus.handler b).1, c.insert slot (d.run Bus.handler b).2) :=
  run_of_inWindow (hd.mono (fun _ => Board.Owns.inWindow) fun _ h => h) hb

end SimulatedCrate
end Reflash
