import Reflash.Proofs.Rom.Calls
import Reflash.Proofs.Simulation.Oversized
import Reflash.Proofs.Update.Barriers
import Reflash.Proofs.Update.History
/-!
# Confinement to a board

Whatever is asked of a session with a ROM or of the update of a board, and whatever the bus
answers: every bus cycle is at a register of that board, and no register is written with anything
but what it is for. So what is done for the boards in different slots does not meet on the bus, and
in a crate it leaves all other boards alone.
-/

namespace Reflash

def Register.all : List UInt32 :=
  [boardId, controlVersion, processingVersion, reset, command, address, data, readback,
    engineStatus]

/-- A word for the command register: an opcode with or without the execute bit and the bit that
closes the page buffer, or the reboot bit alone. -/
def Control.IsWord (word : UInt32) : Prop :=
  word = reboot ∨ ∃ (opcode : Rom.Opcode) (starting closing : Bool),
    word = opcode.byte.toUInt32 ||| (if starting then execute else 0) |||
      if closing then endOfCommand else 0

inductive Register.Takes : UInt32 → UInt32 → Prop where
  | reset : Takes Register.reset 3
  | command {word : UInt32} (hword : Control.IsWord word) : Takes Register.command word
  | address {value : UInt32} (hvalue : value.toNat < 2 ^ 24) : Takes Register.address value
  | data (value : UInt32) : Takes Register.data value

/-- The cycle is at a register of the board, the address of which is the sum of base and offset. If
it is a write, the register takes what is written. -/
def Board.Permits (b : Board) (cycle : Access) : Prop :=
  ∃ offset ∈ Register.all, cycle.address.toNat = b.base.toNat + offset.toNat ∧
    ∀ address value, cycle = .write address value → Register.Takes offset value

theorem Control.IsCommandWord.isWord {word : UInt32} (h : Control.IsCommandWord word) :
    Control.IsWord word := by
  obtain ⟨cmd, rfl | rfl⟩ := h
  · exact .inr ⟨cmd.opcode, false, cmd.endOfCommand, (UInt32.or_assoc ..).symm⟩
  · exact .inr ⟨cmd.opcode, true, cmd.endOfCommand, (UInt32.or_assoc ..).symm⟩

namespace Board

variable {b : Board} {offset : UInt32}

theorem Fits.toNat_add (hb : b.Fits) (hoffset : offset ≤ Register.engineStatus) :
    (b.base + offset).toNat = b.base.toNat + offset.toNat := by
  have hle : offset.toNat ≤ Register.engineStatus.toNat := UInt32.le_iff_toNat_le.mp hoffset
  have hlt : b.base.toNat + offset.toNat < UInt32.size := by
    unfold Fits at hb
    omega
  rw [UInt32.toNat_add]
  exact Nat.mod_eq_of_lt hlt

theorem le_engineStatus_of_mem_all (h : offset ∈ Register.all) :
    offset ≤ Register.engineStatus := by
  have hall : Register.all.all (· ≤ Register.engineStatus) = true := by decide
  exact of_decide_eq_true (List.all_eq_true.mp hall offset h)

theorem Owns.permits (hb : b.Fits) {r : Request} (hr : b.Owns r) {answer : r.Answer}
    {cycle : Access} (hof : Access.of? r answer = some cycle) : b.Permits cycle := by
  have hat : ∀ offset ∈ Register.all, (b.base + offset).toNat = b.base.toNat + offset.toNat :=
    fun offset hmem => hb.toNat_add (le_engineStatus_of_mem_all hmem)
  have hread : ∀ offset ∈ Register.all, ∀ value, b.Permits (.read (b.base + offset) value) :=
    fun offset hmem value => ⟨offset, hmem, hat offset hmem, nofun⟩
  have hwrite : ∀ offset ∈ Register.all, ∀ value, Register.Takes offset value →
      b.Permits (.write (b.base + offset) value) := by
    intro offset hmem value htakes
    refine ⟨offset, hmem, hat offset hmem, ?_⟩
    rintro _ _ ⟨⟩
    exact htakes
  obtain (hdrives | rfl | rfl | rfl) | rfl := hr
  · cases r with
    | read address =>
        cases hof
        obtain rfl | rfl := hdrives
        · exact hread Register.readback (by decide) _
        · exact hread Register.engineStatus (by decide) _
    | write address value =>
        cases hof
        obtain ⟨rfl, hword⟩ | ⟨rfl, hle⟩ | rfl := hdrives
        · exact hwrite Register.command (by decide) _ (.command hword.isWord)
        · refine hwrite Register.address (by decide) _ (.address ?_)
          exact Nat.lt_of_le_of_lt hle (by decide)
        · exact hwrite Register.data (by decide) _ (.data value)
    | probe => exact hdrives.elim
    | pause | tick | remark | report => cases hof
  · cases hof
    exact hwrite Register.reset (by decide) _ .reset
  · cases hof
    exact ⟨Register.controlVersion, by decide, hat _ (by decide), nofun⟩
  · cases hof
    exact hread Register.controlVersion (by decide) _
  · cases hof
    exact hwrite Register.command (by decide) _ (.command (.inl rfl))

end Board

/-! ## Errands -/

/-- A call that is made for a board: of a session with its ROM, or of its update. -/
inductive Errand where
  | session (s : RomSession) (call : RomSession.Call)
  | update (u : BoardUpdate) (call : BoardUpdate.Call)

/-- The board that a routine still is about in the end, unless it went off the bus. -/
def Outcome.boardLeft {σ ε α : Type} (board : σ → Board) : Outcome ε α × σ → Option Board
  | (.ok _, s) | (.failed _, s) => some (board s)
  | (.offBus, _) => none

theorem Routine.Keeps.boardLeft {σ ε α : Type} {allowed : Request → Prop} {board : σ → Board}
    {b : Board} {r : Job σ ε α} (hr : r.Keeps allowed fun s => board s = b) {s : σ}
    (hs : board s = b) :
    ((r s).bind fun ended => .done (Outcome.boardLeft board ended)).Keeps allowed
      (· = some b) := by
  refine Dialogue.Keeps.bind (hr s hs) ?_
  rintro ⟨out, s'⟩ ⟨hs', hout⟩
  cases out with
  | ok | failed => exact congrArg some hs'
  | offBus => exact absurd rfl hout

theorem BoardUpdate.keeps_job_owns {b : Board} (hb : b.Fits) (call : Call) :
    call.job.Keeps b.Owns fun u => u.board = b := by
  obtain hkeeps | rfl | ⟨file, rfl⟩ := keeps_job hb call
  · exact hkeeps.mono fun _ => .inl
  · exact keeps_startReboot hb
  · exact keeps_run hb file

namespace Errand

def board : Errand → Board
  | session s _ => s.board
  | update u _ => u.board

/-- What goes on for an errand. The result is the board that it still is for in the end, none if
an address was beyond the bus. -/
def exchange : Errand → Exchange (Option Board)
  | session s call =>
    (call.job s).bind fun ended => .done (Outcome.boardLeft RomSession.board ended)
  | update u call =>
    (call.job u).bind fun ended => .done (Outcome.boardLeft BoardUpdate.board ended)

theorem keeps_exchange (e : Errand) (hfits : e.board.Fits) :
    e.exchange.Keeps e.board.Owns (· = some e.board) := by
  cases e with
  | session s call =>
      have hkeeps := (call.isProper_job s.board hfits).mono fun _ hr =>
        (.inl (.inl hr) : s.board.Owns _)
      exact hkeeps.boardLeft rfl
  | update u call => exact (BoardUpdate.keeps_job_owns hfits call).boardLeft rfl

theorem keeps_inWindow {e : Errand} {slot : Slot} (h : e.board = .geographic slot) :
    e.exchange.Keeps (Request.InWindow slot) fun _ => True := by
  have hkeeps := e.keeps_exchange (by rw [h]; exact slot.fits_geographic)
  rw [h] at hkeeps
  exact hkeeps.mono (fun _ => Board.Owns.inWindow) fun _ _ => trivial

end Errand

theorem Exchange.mem_cycles {σ α : Type} [Bus σ] {d : Exchange α} {allowed : Request → Prop}
    {promised : α → Prop} (hd : d.Keeps allowed promised) (bus : σ) {cycle : Access}
    (hcycle : cycle ∈ Exchange.cycles d bus) :
    ∃ (request : Request) (answer : request.Answer),
      allowed request ∧ Access.of? request answer = some cycle := by
  obtain ⟨turns, hplays, hrun⟩ := Bus.run_recorder d bus []
  rw [Exchange.cycles, hrun, List.nil_append] at hcycle
  obtain ⟨turn, hturn, hof⟩ := List.mem_filterMap.mp hcycle
  exact ⟨turn.1, turn.2, (hd.of_plays hplays).1 turn hturn, hof⟩

namespace SimulatedCrate

/-- What goes on in the window of one slot is nothing to the board in another. -/
theorem board?_run_of_ne {α : Type} {d : Exchange α} {slot other : Slot} {promised : α → Prop}
    (hd : d.Keeps (Request.InWindow slot) promised) (h : other ≠ slot) (c : SimulatedCrate) :
    (d.run Bus.handler c).2.board? other = c.board? other := by
  cases hb : c.board? slot with
  | none => rw [run_of_vacant hd hb]
  | some b =>
      rw [run_of_inWindow hd hb]
      exact board?_insert_of_ne c _ h

end SimulatedCrate

/-- A call for a board that fits on the bus never goes off it, and it makes all its bus cycles at
the registers of that board, each of which takes what is written to it; this is so on any bus, in
any state of the session or the update, and however the call ends. What is called for boards at the
geographic addresses of different slots does not meet at any address, and in a crate the boards in
all other slots are left as they are. -/
theorem errands_are_confined :
    (∀ {σ : Type} [Bus σ] (bus : σ) (e : Errand), e.board.Fits →
      (e.exchange.run Bus.handler bus).1 = some e.board ∧
        ∀ cycle ∈ Exchange.cycles e.exchange bus, e.board.Permits cycle) ∧
    (∀ {σ τ : Type} [Bus σ] [Bus τ] (bus : σ) (bus' : τ) (e e' : Errand) (slot slot' : Slot),
      e.board = .geographic slot → e'.board = .geographic slot' → slot ≠ slot' →
      ∀ cycle ∈ Exchange.cycles e.exchange bus, ∀ cycle' ∈ Exchange.cycles e'.exchange bus',
        cycle.address ≠ cycle'.address) ∧
    ∀ (c : SimulatedCrate) (e : Errand) (slot other : Slot),
      e.board = .geographic slot → other ≠ slot →
        (e.exchange.run Bus.handler c).2.board? other = c.board? other := by
  refine ⟨?_, ?_, ?_⟩
  · intro σ _ bus e hfits
    have hkeeps := e.keeps_exchange hfits
    refine ⟨hkeeps.run Bus.handler bus, fun cycle hcycle => ?_⟩
    obtain ⟨request, answer, howns, hof⟩ := Exchange.mem_cycles hkeeps bus hcycle
    exact howns.permits hfits hof
  · intro σ τ _ _ bus bus' e e' slot slot' he he' hslots cycle hcycle cycle' hcycle' haddress
    obtain ⟨_, _, hin, hof⟩ := Exchange.mem_cycles (Errand.keeps_inWindow he) bus hcycle
    obtain ⟨_, _, hin', hof'⟩ := Exchange.mem_cycles (Errand.keeps_inWindow he') bus' hcycle'
    have hisIn' : cycle'.IsIn slot := by
      rw [Access.IsIn, ← haddress]
      exact hin.isIn hof
    exact hslots (hisIn'.slot_eq (hin'.isIn hof'))
  · intro c e slot other he hother
    exact SimulatedCrate.board?_run_of_ne (Errand.keeps_inWindow he) hother c

/-- On a bus where every register reads as a ready engine, a word is written to the board at the
last base address that fits. And a board that is rebooted leaves the board beside it alone. -/
theorem errands_are_confined_at_last_base :
    let b : Board := ⟨.third, 0xFFFFFECF⟩
    let e := Errand.session { board := b, budgets := {}, timing := .immediate }
      (.writeWord 4 5 false)
    let rebooting : BoardUpdate :=
      { BoardUpdate.new (.geographic .first) {} .immediate with phase := .verified }
    let e' := Errand.update rebooting .startReboot
    let c := SimulatedCrate.sole .third { version := ⟨1, 2⟩ }
    e.board.Fits ∧ (.write 0xFFFFFFF7 5) ∈ Exchange.cycles e.exchange (SteadyBus.mk 2) ∧
      (∀ cycle ∈ Exchange.cycles e.exchange (SteadyBus.mk 2), b.Permits cycle) ∧
      (.write 0x80120 Control.reboot) ∈ Exchange.cycles e'.exchange c ∧
      (∀ cycle ∈ Exchange.cycles e'.exchange c,
        ∀ cycle' ∈ Exchange.cycles (Errand.session
          { board := .geographic .third, budgets := {}, timing := .immediate } .readId).exchange c,
          cycle.address ≠ cycle'.address) ∧
      (e'.exchange.run Bus.handler c).2.board? .third = c.board? .third :=
  ⟨by decide, by decide +kernel, (errands_are_confined.1 _ _ (by decide)).2, by decide +kernel,
    errands_are_confined.2.1 _ _ _ _ _ _ rfl rfl (by decide),
    errands_are_confined.2.2 _ _ _ _ rfl (by decide)⟩

end Reflash
