import Reflash.Proofs.Update.Partition
import Reflash.Proofs.Update.Rerun
/-!
# Boards that are left alone

Unless it is forced, an update leaves a board alone if the lower halves of its two version registers
are the target's. A register that nothing drives reads as all ones, and so does its lower half,
which is taken for a version like any other. A board that does not answer is therefore never taken
for one that is up to date, as long as no half of the target is all ones.
-/

namespace Reflash

/-! ## Version words -/

/-- A word whose lower half is this one, not driven if the half is all ones. -/
def wordFor (half : UInt16) : UInt32 := if half = 0xFFFF then notDriven else half.toUInt32

theorem toUInt16_wordFor (half : UInt16) : (wordFor half).toUInt16 = half := by
  unfold wordFor
  split
  next h =>
    rw [h]
    rfl
  next => exact UInt16.toUInt16_toUInt32 half

theorem ne_notDriven_of_toUInt16 {word : UInt32} {half : UInt16} (hword : word.toUInt16 = half)
    (hhalf : half ≠ 0xFFFF) : word ≠ notDriven := by
  rintro rfl
  exact hhalf hword.symm

def FixedBus.reporting (v : Version) : FixedBus where
  word address :=
    if address = Register.controlVersion then wordFor v.control else wordFor v.processing

theorem FixedBus.word_reporting (v : Version) (address : UInt32) :
    (reporting v).word address =
      if address = Register.controlVersion then wordFor v.control else wordFor v.processing := rfl

/-! ## The look at a board -/

variable {target : Version}

theorem Look.words_of_reporting {α : Type} {d : Exchange α} {x : Look} {slot : Slot}
    {control processing : UInt32} (hboard : x.board = ⟨slot, 0⟩)
    (hversions : x.versions? = some (control, processing))
    (hcycles : x.cycles ⊆ Exchange.cycles d (FixedBus.reporting target)) :
    control = wordFor target.control ∧ processing = wordFor target.processing := by
  have hlooked : x.versions?.isNone = false := by rw [hversions, Option.isNone_some]
  have hwords := CrateUpdate.versions?_of_fixedBus hlooked hcycles
  rw [hversions, hboard, UInt32.zero_add, UInt32.zero_add, FixedBus.word_reporting,
    FixedBus.word_reporting, if_pos rfl, if_neg (by decide)] at hwords
  exact Prod.mk.inj (Option.some.inj hwords)

theorem Look.isCurrent_iff {x : Look} {control processing : UInt32}
    (h : x.versions? = some (control, processing)) :
    x.isCurrent target = true ↔
      control.toUInt16 = target.control ∧ processing.toUInt16 = target.processing := by
  rw [Look.isCurrent, h, Option.any_some, decide_eq_true_eq, Version.combined_inj,
    Version.mk.injEq]

namespace CrateUpdate

theorem Accounts.skip_iff {registry : Registry} {config : UpdateConfig} {file : Image}
    {force : Bool} {looks : List Look} {phases : List (List Share)} {us : List BoardUpdate}
    {cycles : List Access} {report : Report}
    (h : Accounts registry.boards config file force looks phases us cycles report)
    (hfits : ∀ b ∈ registry.boards, b.Fits) {x : Look} (hx : x ∈ looks) {st : BoardStatus}
    (hst : report.status? x.board.slot = some st) :
    st.skip = true ↔ x.isCurrent config.target = true := by
  rw [(h.entry hfits hst).skip_iff, h.mem_slotsOf hx, Bool.not_eq_false]

def Judged (report : Report) (x : Look) (control processing : UInt32) (st : BoardStatus) : Prop :=
  x.versions? = some (control, processing) ∧ report.status? x.board.slot = some st

/-- An update that is not forced looks at every board, and leaves it alone if the lower halves of
the words are the target's. -/
theorem judged_of_look {registry : Registry} {config : UpdateConfig} {file : Image}
    {looks : List Look} {phases : List (List Share)} {us : List BoardUpdate}
    {cycles : List Access} {report : Report}
    (h : Accounts registry.boards config file false looks phases us cycles report)
    (hfits : ∀ b ∈ registry.boards, b.Fits) {x : Look} (hx : x ∈ looks) :
    ∃ control processing st, Judged report x control processing st ∧
      (st.skip = true ↔ control.toUInt16 = config.target.control ∧
        processing.toUInt16 = config.target.processing) := by
  have hlooked := h.forced x hx
  cases hversions : x.versions? with
  | none =>
      rw [hversions] at hlooked
      cases hlooked
  | some versions =>
      obtain ⟨control, processing⟩ := versions
      refine ⟨control, processing, _, ⟨hversions, h.status_eq hx⟩, ?_⟩
      rw [h.skip_iff hfits hx (h.status_eq hx), Look.isCurrent_iff hversions]

/-- An update to this target that is not forced leaves a board alone only if both its version
registers are driven, and their lower halves are the target's, whatever is on the bus. -/
def SkipsOnlyAnswering (target : Version) : Prop :=
  ∀ (ω : Type) [Bus ω] (registry : Registry) (config : UpdateConfig) (file : Image) (w : ω),
    (∀ b ∈ registry.boards, b.Fits) → config.target = target → file.isLoaded = true →
    let job : Exchange (Outcome RomError Report × Unit) := run registry config file false ()
    ∃ looks phases us report w',
      job.run Bus.handler w = ((.ok report, ()), w') ∧
      Accounts registry.boards config file false looks phases us (job.cycles w) report ∧
      ∀ x ∈ looks, ∃ control processing st, Judged report x control processing st ∧
        (st.skip = true → control ≠ notDriven ∧ processing ≠ notDriven ∧
          control.toUInt16 = target.control ∧ processing.toUInt16 = target.processing)

/-- A board that is not answering is told from one that is up to date for exactly those targets
that have no half of all ones. -/
theorem skipsOnlyAnswering_iff (target : Version) :
    SkipsOnlyAnswering target ↔ target.control ≠ 0xFFFF ∧ target.processing ≠ 0xFFFF := by
  constructor
  · -- A half of all ones is met by a word that is not driven, so the board is left alone.
    intro h
    let registry := Registry.empty.insert .first 0
    have hboards : registry.boards = [⟨.first, 0⟩] := rfl
    have hfits : ∀ b ∈ registry.boards, b.Fits := by
      rw [hboards]
      exact List.forall_mem_singleton.mpr (by decide)
    obtain ⟨looks, phases, us, report, w', -, haccounts, hall⟩ :=
      h FixedBus registry { target } (.ofWords [7]) (.reporting target) hfits rfl rfl
    obtain ⟨x, rfl, hboard⟩ := List.map_eq_singleton_iff.mp (haccounts.boards_eq.trans hboards)
    have hx : x ∈ [x] := List.mem_singleton_self x
    obtain ⟨control, processing, st, ⟨hversions, hst⟩, hdriven⟩ := hall x hx
    have hcycles := haccounts.cycles_eq
    rw [List.flatMap_singleton] at hcycles
    obtain ⟨rfl, rfl⟩ := x.words_of_reporting hboard hversions fun _ hmem => by
      rw [hcycles]
      exact List.mem_append_left _ hmem
    have hskip : st.skip = true := by
      rw [haccounts.skip_iff hfits hx hst, Look.isCurrent_iff hversions]
      exact ⟨toUInt16_wordFor _, toUInt16_wordFor _⟩
    obtain ⟨hcontrol, hprocessing, -⟩ := hdriven hskip
    exact ⟨fun heq => hcontrol (if_pos heq), fun heq => hprocessing (if_pos heq)⟩
  · rintro ⟨hcontrol, hprocessing⟩ ω _ registry config file w hfits rfl hfile job
    obtain ⟨cycles, looks, phases, us, report, w', hrun, -, haccounts⟩ :=
      exists_accounts hfits config hfile false () w
    have hcycles : job.cycles w = cycles := hrun.cycles_eq
    refine ⟨looks, phases, us, report, w', hrun.run_eq, hcycles ▸ haccounts, fun x hx => ?_⟩
    obtain ⟨control, processing, st, hjudged, hskip⟩ := judged_of_look haccounts hfits hx
    refine ⟨control, processing, st, hjudged, fun hst => ?_⟩
    obtain ⟨hc, hp⟩ := hskip.mp hst
    exact ⟨ne_notDriven_of_toUInt16 hc hcontrol, ne_notDriven_of_toUInt16 hp hprocessing, hc, hp⟩

/-- An update to the target of all ones leaves alone a board that is away for a reboot, after two
reads that nobody has driven. -/
theorem rebooting_taken_for_current :
    let c := SimulatedCrate.sole .third { version := ⟨1, 2⟩, rebooting := 7 }
    let registry := Registry.empty.insert .third Slot.third.base
    let job : Exchange (Outcome RomError Report × Unit) :=
      run registry { target := ⟨0xFFFF, 0xFFFF⟩ } (.ofWords [7]) false ()
    (job.run Bus.handler c).1 = (.ok ⟨[(.third, .current)]⟩, ()) ∧
      job.cycles c = [.read (Slot.third.base + Register.controlVersion) notDriven,
        .read (Slot.third.base + Register.processingVersion) notDriven] := by
  with_unfolding_all exact ⟨rfl, rfl⟩

end CrateUpdate
end Reflash
