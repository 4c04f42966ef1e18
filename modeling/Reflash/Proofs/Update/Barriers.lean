import Reflash.Proofs.Registry
import Reflash.Proofs.Update.Path
import Reflash.Proofs.Update.Shares
/-!
# Phases as barriers

The bus cycles of a crate's update come phase by phase, and in each phase board by board in
ascending slot order. A board whose firmware is current is only looked at, and one that failed is
not touched again. So every erase is under way before any is waited for, and every board is asked to
reboot before any is polled.
-/

namespace Reflash

def Access.IsIn (slot : Slot) (cycle : Access) : Prop :=
  Slot.ofAddress? cycle.address = some slot

theorem Request.InWindow.isIn {slot : Slot} {r : Request} (h : r.InWindow slot)
    {answer : r.Answer} {cycle : Access} (hof : Access.of? r answer = some cycle) :
    cycle.IsIn slot := by
  cases r with
  | read | write | probe =>
      cases hof
      exact h
  | pause | tick | remark | report => cases hof

theorem Access.IsIn.slot_eq {slot other : Slot} {cycle : Access} (h : cycle.IsIn slot)
    (h' : cycle.IsIn other) : slot = other :=
  Option.some.inj (Eq.trans (Eq.symm h) h')

namespace CrateUpdate

open BoardUpdate

variable {start mid next : Phase} {job : UpdateJob Unit} {jobs : List (UpdateJob Unit)}
  {us us₁ us' : List BoardUpdate} {shares : List Share} {phases : List (List Share)}

/-- A phase of these updates, which leads from one phase of a board to another: each of them goes
through the job on its own board, one behind the other in ascending slot order. -/
structure IsPhase (start next : Phase) (job : UpdateJob Unit) (entering : List BoardUpdate)
    (shares : List Share) : Prop where
  entered : shares.map Share.before = entering
  takes : ∀ x ∈ shares, TakesFrom start next x
  ends : ∀ x ∈ shares, job.Ends x.before x.cycles x.out x.after
  ascending : shares.Pairwise fun x y => x.slot.number < y.slot.number
  geographic : ∀ x ∈ shares, x.board = .geographic x.slot
  own : ∀ x ∈ shares, ∀ cycle ∈ x.cycles, cycle.IsIn x.slot

structure Lined (us : List BoardUpdate) : Prop where
  geographic : ∀ b ∈ us.map BoardUpdate.board, b = .geographic b.slot
  ascending : (us.map BoardUpdate.board).Pairwise fun b b' => b.slot.number < b'.slot.number

theorem Lined.allFit (h : Lined us) : AllFit us := by
  intro b hb
  rw [h.geographic b hb]
  exact Slot.fits_geographic _

theorem Went.lined (h : Went job us shares us') (hlined : Lined us) : Lined us' :=
  ⟨h.boards_eq ▸ hlined.geographic, h.boards_eq ▸ hlined.ascending⟩

theorem Went.sublist (h : Went job us shares us') :
    (shares.map Share.board).Sublist (us.map BoardUpdate.board) := by
  have hboards : shares.map Share.board = (live us).map BoardUpdate.board := by
    rw [← h.before_eq, List.map_map]
    rfl
  rw [hboards]
  exact List.filter_sublist.map BoardUpdate.board

theorem Went.isPhase (hmoves : Moves start next job) (hlined : Lined us) (hat : AllAt start us)
    (h : Went job us shares us') : IsPhase start next job (live us) shares := by
  have hgeographic : ∀ x ∈ shares, x.board = .geographic x.slot := by
    intro x hx
    exact hlined.geographic x.board (h.sublist.subset (List.mem_map_of_mem hx))
  refine ⟨h.before_eq, (h.takesFrom hmoves hlined.allFit hat).1, fun x => h.ends, ?_,
    hgeographic, ?_⟩
  · have hsome := hlined.ascending.sublist h.sublist
    rwa [List.pairwise_map] at hsome
  · intro x hx cycle hcycle
    have hkeeps := hmoves.keeps _ x.slot.fits_geographic
    rcases hkeeps.mem_cycles (hgeographic x hx) (h.ends hx) hcycle with ⟨_, _, howns, hof⟩
    exact howns.inWindow.isIn hof

theorem ne_of_number_lt {slot other : Slot} (h : slot.number < other.number) : slot ≠ other := by
  rintro rfl
  exact Nat.lt_irrefl _ h

section IsPhase

variable {entering : List BoardUpdate} {x : Share}

theorem IsPhase.nodup (h : IsPhase start next job entering shares) :
    (shares.map Share.slot).Nodup :=
  List.pairwise_map.mpr (h.ascending.imp ne_of_number_lt)

theorem IsPhase.slot_mem (h : IsPhase start next job entering shares) (hx : x ∈ shares) :
    x.slot ∈ slotsOf entering := by
  rw [slotsOf, ← h.entered, List.map_map]
  exact List.mem_map_of_mem hx

theorem IsPhase.fits (h : IsPhase start next job entering shares) (hx : x ∈ shares) :
    x.board.Fits := by
  rw [h.geographic x hx]
  exact Slot.fits_geographic _

theorem IsPhase.countP_reboots (h : IsPhase start next job entering shares)
    (hkeeps : ∀ b : Board, b.Fits → job.Keeps b.Updates fun u => u.board = b) (hx : x ∈ shares) :
    x.cycles.countP x.board.reboots = 0 :=
  countP_reboots_eq_zero (hkeeps _ (h.fits hx)) rfl (h.ends x hx)

theorem IsPhase.mem_eraseStarted (h : IsPhase start next startErase entering shares)
    (hx : x ∈ shares) (hdone : x.failure? = none) : x.cycles ∈ x.board.eraseStarted := by
  have hends := h.ends x hx
  rw [Share.out_eq_ok hdone] at hends
  cases goes_startErase (h.fits hx) rfl hends with
  | done _ _ hmade => exact hmade

theorem IsPhase.asks_reboot (h : IsPhase .verified next startReboot entering shares)
    (hx : x ∈ shares) :
    x.cycles = [.write (x.board.base + Register.command) Control.reboot] := by
  rcases ends_startReboot (h.fits hx) rfl (h.ends x hx) with ⟨hne, -⟩ | ⟨-, hcycles, -⟩
  · exact absurd (h.takes x hx).start_eq hne
  · exact hcycles

end IsPhase

/-- The first of several phases, and what is known when it is over. -/
theorem Passes.step (hmoves : Moves start mid job) (hmid : mid.failure? = none)
    (hlined : Lined us) (hat : AllAt start us) (h : Passes (job :: jobs) us phases us') :
    ∃ shares later us₁, phases = shares :: later ∧
      IsPhase start mid job (live us) shares ∧ live us₁ = carriedOn shares ∧ AllAt mid us₁ ∧
      Lined us₁ ∧ Passes jobs us₁ later us' := by
  cases h with
  | @cons _ _ _ us₁ _ shares later hphase hrest =>
      rcases hphase.takesFrom hmoves hlined.allFit hat with ⟨htakes, hat'⟩
      exact ⟨shares, later, us₁, rfl, hphase.isPhase hmoves hlined hat,
        hphase.live_eq hmid htakes, hat', hphase.lined hlined, hrest⟩

/-! ## Dropping out -/

theorem mem_of_carriedOn {slot : Slot} (h : slot ∈ slotsOf (carriedOn shares)) :
    ∃ x ∈ shares, x.slot = slot ∧ x.failure? = none := by
  rw [slotsOf, carriedOn, List.map_map] at h
  rcases List.mem_map.mp h with ⟨x, hx, hslot⟩
  rcases List.mem_filter.mp hx with ⟨hmem, hdone⟩
  refine ⟨x, hmem, ?_, Option.isNone_iff_eq_none.mp hdone⟩
  rw [← hslot]
  exact congrArg Board.slot x.board_eq.symm

/-- After a share that failed its board has no other one. -/
def Drops (x y : Share) : Prop := x.failure? ≠ none → y.slot ≠ x.slot

/-- A board takes part in a phase only if it has not failed, and then no more once it fails. -/
theorem Passes.dropping (hcourse : Course start jobs next) (hnext : next.failure? = none)
    (hlined : Lined us) (hat : AllAt start us) (h : Passes jobs us phases us') :
    (∀ y ∈ phases.flatten, y.slot ∈ slotsOf (live us)) ∧ phases.flatten.Pairwise Drops := by
  induction hcourse generalizing us phases with
  | nil =>
      cases h
      exact ⟨List.forall_mem_nil _, .nil⟩
  | cons hjob hrest ih =>
      rcases h.step hjob (hrest.start_eq hnext) hlined hat with
        ⟨shares, later, us₁, rfl, hphase, hlive, hat₁, hlined₁, hpasses⟩
      rcases ih hnext hlined₁ hat₁ hpasses with ⟨hmem, hdrops⟩
      have hlater : ∀ y ∈ later.flatten, ∃ x ∈ shares, x.slot = y.slot ∧ x.failure? = none := by
        intro y hy
        apply mem_of_carriedOn
        rw [← hlive]
        exact hmem y hy
      rw [List.flatten_cons]
      constructor
      · intro y hy
        rcases List.mem_append.mp hy with hy | hy
        · exact hphase.slot_mem hy
        · rcases hlater y hy with ⟨x, hx, hslot, -⟩
          rw [← hslot]
          exact hphase.slot_mem hx
      · refine List.pairwise_append.mpr ⟨?_, hdrops, ?_⟩
        · apply hphase.ascending.imp
          exact fun hlt _ => (ne_of_number_lt hlt).symm
        · intro x hx y hy hfailed heq
          rcases hlater y hy with ⟨x', hx', hslot, hnone⟩
          have hsame : x' = x :=
            List.inj_on_of_nodup_map hphase.nodup hx' hx (hslot.trans heq)
          rw [hsame] at hnone
          exact hfailed hnone

/-! ## The boards that are updated -/

theorem live_enlisted (config : UpdateConfig) (looks : List Look) :
    live (enlisted config looks) = enlisted config looks := by
  apply List.filter_eq_self.mpr
  intro u hu
  rcases List.mem_map.mp hu with ⟨x, -, rfl⟩
  rfl

structure LooksAt (registry : Registry) (looks : List Look) : Prop where
  boards_eq : looks.map Look.board = registry.boards
  geographic : registry.IsGeographic

namespace LooksAt

variable {registry : Registry} {looks : List Look} {config : UpdateConfig}

theorem board_eq (h : LooksAt registry looks) {x : Look} (hx : x ∈ looks) :
    x.board = .geographic x.board.slot := by
  apply h.geographic
  rw [← h.boards_eq]
  exact List.mem_map_of_mem hx

theorem ascending (h : LooksAt registry looks) :
    looks.Pairwise fun x y => x.board.slot.number < y.board.slot.number := by
  have hboards := registry.pairwise_boards
  rwa [← h.boards_eq, List.pairwise_map] at hboards

theorem lined (h : LooksAt registry looks) : Lined (enlisted config looks) := by
  constructor
  · intro b hb
    rw [boards_enlisted] at hb
    rcases List.mem_map.mp hb with ⟨x, hx, rfl⟩
    exact h.board_eq (List.mem_of_mem_filter hx)
  · rw [boards_enlisted, List.pairwise_map]
    exact h.ascending.filter _

/-- A board that is current is not among those to be updated. -/
theorem not_mem_of_isCurrent (h : LooksAt registry looks) {x : Look} (hx : x ∈ looks)
    (hcurrent : x.isCurrent config.target = true) :
    x.board.slot ∉ slotsOf (enlisted config looks) := by
  intro hmem
  rw [slotsOf, enlisted, List.map_map] at hmem
  rcases List.mem_map.mp hmem with ⟨y, hy, hslot⟩
  rcases List.mem_filter.mp hy with ⟨hy, hother⟩
  have hnodup : (looks.map fun x => x.board.slot).Nodup :=
    List.pairwise_map.mpr (h.ascending.imp ne_of_number_lt)
  have hsame : y = x := List.inj_on_of_nodup_map hnodup hy hx hslot
  rw [hsame, hcurrent] at hother
  cases hother

theorem isIn (h : LooksAt registry looks) {x : Look} (hx : x ∈ looks) {cycle : Access}
    (hcycle : cycle ∈ x.cycles) : cycle.IsIn x.board.slot := by
  rw [Look.cycles] at hcycle
  cases hversions : x.versions? with
  | none => simp [hversions] at hcycle
  | some versions =>
      rcases versions with ⟨control, processing⟩
      have hwindow : ∀ offset : UInt32, offset ≤ Register.engineStatus →
          Slot.ofAddress? (x.board.base + offset) = some x.board.slot := by
        intro offset hoffset
        rw [congrArg Board.base (h.board_eq hx)]
        exact x.board.slot.ofAddress?_register hoffset
      rw [hversions] at hcycle
      rcases List.mem_pair.mp hcycle with rfl | rfl
      · exact hwindow _ (by decide)
      · exact hwindow _ (by decide)

end LooksAt

/-! ## The phases of a crate's update -/

/-- The seven phases of an update, each with the boards that did not fail in the one before. -/
structure Phased (file : Image) (entering : List BoardUpdate)
    (resets readies starts waits refills requests returns : List Share) : Prop where
  are_reset : IsPhase .init .reset reset entering resets
  get_ready : IsPhase .reset .ready (announced .init fun _ => waitReady) (carriedOn resets) readies
  start_erase : IsPhase .ready .erasing startErase (carriedOn readies) starts
  await_erase : IsPhase .erasing .erased (announced .erase awaitErase) (carriedOn starts) waits
  are_refilled : IsPhase .erased .verified (refill file) (carriedOn waits) refills
  start_reboot : IsPhase .verified .rebooting startReboot (carriedOn refills) requests
  await_reboot :
    IsPhase .rebooting .rebooted (announced .reboot awaitReboot) (carriedOn requests) returns

theorem Passes.phased {file : Image} (hlined : Lined us) (hat : AllAt .init us)
    (h : Passes (stages file) us phases us') :
    ∃ resets readies starts waits refills requests returns,
      phases = [resets, readies, starts, waits, refills, requests, returns] ∧
      Phased file (live us) resets readies starts waits refills requests returns := by
  rcases h.step moves_reset rfl hlined hat with ⟨resets, _, _, rfl, hresets, h₁, hat, hlined, h⟩
  rcases h.step moves_waitReady rfl hlined hat with
    ⟨readies, _, _, rfl, hreadies, h₂, hat, hlined, h⟩
  rcases h.step moves_startErase rfl hlined hat with
    ⟨starts, _, _, rfl, hstarts, h₃, hat, hlined, h⟩
  rcases h.step moves_awaitErase rfl hlined hat with
    ⟨waits, _, _, rfl, hwaits, h₄, hat, hlined, h⟩
  rcases h.step (moves_refill file) rfl hlined hat with
    ⟨refills, _, _, rfl, hrefills, h₅, hat, hlined, h⟩
  rcases h.step moves_startReboot rfl hlined hat with
    ⟨requests, _, _, rfl, hrequests, h₆, hat, hlined, h⟩
  rcases h.step moves_awaitReboot rfl hlined hat with
    ⟨returns, _, _, rfl, hreturns, -, -, -, h⟩
  cases h
  refine ⟨resets, readies, starts, waits, refills, requests, returns, rfl, ?_⟩
  exact ⟨hresets, h₁ ▸ hreadies, h₂ ▸ hstarts, h₃ ▸ hwaits, h₄ ▸ hrefills, h₅ ▸ hrequests,
    h₆ ▸ hreturns⟩

section Phased

variable {file : Image} {entering : List BoardUpdate}
  {resets readies starts waits refills requests returns : List Share}

theorem Phased.own
    (h : Phased file entering resets readies starts waits refills requests returns) {x : Share}
    (hx : x ∈ [resets, readies, starts, waits, refills, requests, returns].flatten) :
    ∀ cycle ∈ x.cycles, cycle.IsIn x.slot := by
  rcases List.mem_flatten.mp hx with ⟨shares, hshares, hmem⟩
  simp only [List.mem_cons, List.not_mem_nil, or_false] at hshares
  rcases hshares with rfl | rfl | rfl | rfl | rfl | rfl | rfl
  · exact h.are_reset.own x hmem
  · exact h.get_ready.own x hmem
  · exact h.start_erase.own x hmem
  · exact h.await_erase.own x hmem
  · exact h.are_refilled.own x hmem
  · exact h.start_reboot.own x hmem
  · exact h.await_reboot.own x hmem

/-- Reboots are asked for in their own phase only. -/
theorem Phased.countP_reboots
    (h : Phased file entering resets readies starts waits refills requests returns) {x : Share}
    (hx : x ∈ [resets, readies, starts, waits, refills, returns].flatten) :
    x.cycles.countP x.board.reboots = 0 := by
  have hreport : ∀ (b : Board) (e : Event), b.Updates (.report e) := fun _ _ => .inl trivial
  have hticks := fun e => Exchange.isSilent_report e
  rcases List.mem_flatten.mp hx with ⟨shares, hshares, hmem⟩
  simp only [List.mem_cons, List.not_mem_nil, or_false] at hshares
  rcases hshares with rfl | rfl | rfl | rfl | rfl | rfl
  · exact h.are_reset.countP_reboots (fun _ => keeps_reset) hmem
  · apply h.get_ready.countP_reboots _ hmem
    exact fun b hb => keeps_announced (hreport b) _ fun _ => keeps_waitReady hb
  · exact h.start_erase.countP_reboots (fun _ => keeps_startErase) hmem
  · apply h.await_erase.countP_reboots _ hmem
    exact fun b hb => keeps_announced (hreport b) _ fun e => keeps_awaitErase hb (hticks e)
  · exact h.are_refilled.countP_reboots (fun _ hb => keeps_refill hb file) hmem
  · apply h.await_reboot.countP_reboots _ hmem
    exact fun b hb => keeps_announced (hreport b) _ fun e => keeps_awaitReboot hb (hticks e)

theorem Phased.board_eq
    (h : Phased file entering resets readies starts waits refills requests returns) {x : Share}
    (hx : x ∈ [resets, readies, starts, waits, refills, requests, returns].flatten) :
    x.board = .geographic x.slot := by
  rcases List.mem_flatten.mp hx with ⟨shares, hshares, hmem⟩
  simp only [List.mem_cons, List.not_mem_nil, or_false] at hshares
  rcases hshares with rfl | rfl | rfl | rfl | rfl | rfl | rfl
  · exact h.are_reset.geographic x hmem
  · exact h.get_ready.geographic x hmem
  · exact h.start_erase.geographic x hmem
  · exact h.await_erase.geographic x hmem
  · exact h.are_refilled.geographic x hmem
  · exact h.start_reboot.geographic x hmem
  · exact h.await_reboot.geographic x hmem

theorem isIn_of_reboots {slot : Slot} {cycle : Access}
    (h : (Board.geographic slot).reboots cycle = true) : cycle.IsIn slot := by
  cases cycle with
  | write address value =>
      have haddress : address = slot.base + Register.command :=
        eq_of_beq (Bool.and_eq_true_iff.mp h).1
      rw [Access.IsIn, Access.address, haddress]
      exact slot.ofAddress?_register (by decide)
  | read | probe => cases h

theorem reboots_eq_false_of_look {x : Look} {cycle : Access} (h : cycle ∈ x.cycles) (b : Board) :
    b.reboots cycle = false := by
  rw [Look.cycles] at h
  split at h
  · cases h
  · rcases List.mem_pair.mp h with rfl | rfl
    · rfl
    · rfl

theorem Phased.mem_requests_of_reboots
    (h : Phased file entering resets readies starts waits refills requests returns) {slot : Slot}
    {cycle : Access}
    (hcycle : cycle ∈ [resets, readies, starts, waits, refills, requests,
      returns].flatten.flatMap Share.cycles)
    (hreboots : (Board.geographic slot).reboots cycle = true) : ∃ x ∈ requests, x.slot = slot := by
  rcases List.mem_flatMap.mp hcycle with ⟨x, hx, hmem⟩
  have hslot : x.slot = slot := (h.own hx cycle hmem).slot_eq (isIn_of_reboots hreboots)
  refine ⟨x, ?_, hslot⟩
  by_contra hnot
  have hother : x ∈ [resets, readies, starts, waits, refills, returns].flatten := by
    simpa [hnot] using hx
  have hnone := List.countP_eq_zero.mp (h.countP_reboots hother) cycle hmem
  rw [h.board_eq hx, hslot] at hnone
  exact hnone hreboots

/-- Exactly the boards in the phase of the requests are asked to reboot. -/
theorem Phased.any_reboots_iff
    (h : Phased file entering resets readies starts waits refills requests returns)
    (looks : List Look) (slot : Slot) :
    (looks.flatMap Look.cycles ++ [resets, readies, starts, waits, refills, requests,
      returns].flatten.flatMap Share.cycles).any (Board.geographic slot).reboots = true ↔
      ∃ x ∈ requests, x.slot = slot := by
  constructor
  · intro hany
    rcases List.any_eq_true.mp hany with ⟨cycle, hcycle, hreboots⟩
    rcases List.mem_append.mp hcycle with hlook | hshare
    · rcases List.mem_flatMap.mp hlook with ⟨x, -, hmem⟩
      rw [reboots_eq_false_of_look hmem] at hreboots
      cases hreboots
    · exact h.mem_requests_of_reboots hshare hreboots
  · rintro ⟨x, hx, rfl⟩
    have hcycles := h.start_reboot.asks_reboot hx
    have hboard := h.start_reboot.geographic x hx
    rw [List.any_append, Bool.or_eq_true]
    right
    apply List.any_eq_true.mpr
    refine ⟨.write (x.board.base + Register.command) Control.reboot, ?_, ?_⟩
    · refine List.mem_flatMap.mpr ⟨x, by simp [hx], ?_⟩
      simp [hcycles]
    · rw [hboard, Board.reboots]
      simp [Board.geographic, hasBits]

theorem Phased.mem_returns
    (h : Phased file entering resets readies starts waits refills requests returns) {x : Share}
    (hx : x ∈ requests) : ∃ y ∈ returns, y.slot = x.slot := by
  have hgoes : x.failure? = none := by
    rcases ends_startReboot (h.start_reboot.fits hx) rfl (h.start_reboot.ends x hx) with
      ⟨hne, -⟩ | ⟨-, -, hout, -⟩
    · exact absurd (h.start_reboot.takes x hx).start_eq hne
    · cases hfailure : x.failure? with
      | none => rfl
      | some failure =>
          rw [Share.out, hfailure] at hout
          cases hout
  have hafter : x.after ∈ returns.map Share.before := by
    rw [h.await_reboot.entered, carriedOn]
    exact List.mem_map_of_mem (List.mem_filter.mpr ⟨hx, by rw [Share.isDone, hgoes]; rfl⟩)
  rcases List.mem_map.mp hafter with ⟨y, hy, hbefore⟩
  refine ⟨y, hy, ?_⟩
  rw [Share.slot, hbefore, BoardUpdate.slot, x.board_eq]
  rfl

end Phased

def Avoids (slot : Slot) (x : Share) : Prop :=
  x.slot ≠ slot ∧ ∀ cycle ∈ x.cycles, ¬ cycle.IsIn slot

theorem avoids {slot : Slot} {x : Share} (hown : ∀ cycle ∈ x.cycles, cycle.IsIn x.slot)
    (hne : x.slot ≠ slot) : Avoids slot x :=
  ⟨hne, fun cycle hcycle hin => hne ((hown cycle hcycle).slot_eq hin)⟩

/-- On any bus, the update of a crate is one look at each board and then one phase after the other.
In every phase the boards that have come so far follow one another in ascending slot order, each by
itself. A board that is current or has failed is left alone from then on. Erases are awaited and
rebooting boards are polled only when all of them have been started. -/
theorem run_phase_by_phase {σ ω : Type} [Bus ω] {registry : Registry}
    (hregistry : registry.IsGeographic) (config : UpdateConfig) {file : Image}
    (hfile : file.isLoaded = true) (force : Bool) (t : σ) (w : ω) :
    ∃ looks resets readies starts waits refills requests returns,
      let shares := [resets, readies, starts, waits, refills, requests, returns].flatten
      Exchange.cycles ((run registry config file force : Job σ RomError Report) t) w =
        looks.flatMap Look.cycles ++ resets.flatMap Share.cycles ++
          readies.flatMap Share.cycles ++ starts.flatMap Share.cycles ++
          waits.flatMap Share.cycles ++ refills.flatMap Share.cycles ++
          requests.flatMap Share.cycles ++ returns.flatMap Share.cycles ∧
      looks.map Look.board = registry.boards ∧
      looks.Pairwise (fun x y => x.board.slot.number < y.board.slot.number) ∧
      (∀ x ∈ looks, x.versions?.isNone = force ∧
        ∀ cycle ∈ x.cycles, cycle.IsIn x.board.slot) ∧
      Phased file (enlisted config looks) resets readies starts waits refills requests returns ∧
      (∀ x ∈ looks, x.isCurrent config.target = true → ∀ y ∈ shares, Avoids x.board.slot y) ∧
      shares.Pairwise (fun x y => x.failure? ≠ none → Avoids x.slot y) ∧
      (∀ y ∈ waits, ∃ x ∈ starts, x.slot = y.slot ∧ x.cycles ∈ x.board.eraseStarted) ∧
      (∀ y ∈ returns, ∃ x ∈ requests, x.slot = y.slot) ∧
      (∀ x ∈ requests,
        x.cycles = [.write (x.board.base + Register.command) Control.reboot]) ∧
      ∀ x ∈ [resets, readies, starts, waits, refills, returns].flatten,
        x.cycles.countP x.board.reboots = 0 := by
  rcases exists_accounts (fun _ => hregistry.fits) config hfile force t w with
    ⟨cycles, looks, phases, us, report, w', hrun, -, haccounts⟩
  have hlooks : LooksAt registry looks := ⟨haccounts.boards_eq, hregistry⟩
  have hlined : Lined (enlisted config looks) := hlooks.lined
  have hat := allAt_enlisted config looks
  rcases haccounts.passes.phased hlined hat with
    ⟨resets, readies, starts, waits, refills, requests, returns, rfl, hphased⟩
  rcases haccounts.passes.dropping (course_stages file) rfl hlined hat with ⟨hmem, hdrops⟩
  rw [live_enlisted] at hphased hmem
  refine ⟨looks, resets, readies, starts, waits, refills, requests, returns, ?_, hlooks.boards_eq,
    hlooks.ascending, fun x hx => ⟨haccounts.forced x hx, fun _ => hlooks.isIn hx⟩, hphased, ?_, ?_,
    ?_, ?_, fun x => hphased.start_reboot.asks_reboot, fun x => hphased.countP_reboots⟩
  · rw [hrun.cycles_eq, haccounts.cycles_eq]
    simp
  · intro x hx hcurrent y hy
    apply avoids (hphased.own hy)
    intro hslot
    apply hlooks.not_mem_of_isCurrent hx hcurrent
    rw [← hslot]
    exact hmem y hy
  · apply hdrops.imp_of_mem
    exact fun _ hy hdrop hfailed => avoids (hphased.own hy) (hdrop hfailed)
  · intro y hy
    rcases mem_of_carriedOn (hphased.await_erase.slot_mem hy) with ⟨x, hx, hslot, hdone⟩
    exact ⟨x, hx, hslot, hphased.start_erase.mem_eraseStarted hx hdone⟩
  · intro y hy
    rcases mem_of_carriedOn (hphased.await_reboot.slot_mem hy) with ⟨x, hx, hslot, -⟩
    exact ⟨x, hx, hslot⟩

/-- Of these boards the first is only looked at, the third and the fifth are asked to reboot and
awaited, and the fourth fails before that. -/
theorem run_phase_by_phase_mixed :
    let config : UpdateConfig := { target := ⟨3, 4⟩ }
    let file := Image.ofWords [2]
    mixedRegistry.IsGeographic ∧ file.isLoaded = true ∧
      ∃ looks resets readies starts waits refills requests returns,
        let shares := [resets, readies, starts, waits, refills, requests, returns].flatten
        mixedUpdate.cycles mixedBus =
          looks.flatMap Look.cycles ++ resets.flatMap Share.cycles ++
            readies.flatMap Share.cycles ++ starts.flatMap Share.cycles ++
            waits.flatMap Share.cycles ++ refills.flatMap Share.cycles ++
            requests.flatMap Share.cycles ++ returns.flatMap Share.cycles ∧
        looks.map Look.board = mixedRegistry.boards ∧
        Phased file (enlisted config looks) resets readies starts waits refills requests returns ∧
        resets.map Share.slot = [.third, .fourth, .fifth] ∧ (∀ y ∈ shares, Avoids .first y) ∧
        shares.Pairwise (fun x y => x.failure? ≠ none → Avoids x.slot y) ∧
        (∀ y ∈ waits, ∃ x ∈ starts, x.slot = y.slot ∧ x.cycles ∈ x.board.eraseStarted) ∧
        (∀ y ∈ returns, ∃ x ∈ requests, x.slot = y.slot) ∧
        (∀ slot ∈ [Slot.third, .fifth], (∃ x ∈ waits, x.slot = slot) ∧
          (∃ x ∈ requests, x.slot = slot) ∧ ∃ x ∈ returns, x.slot = slot) ∧
        ∀ x ∈ requests, x.slot ≠ .fourth := by
  intro config file
  have hregistry : mixedRegistry.IsGeographic := by decide
  rcases run_phase_by_phase hregistry config (show file.isLoaded = true from rfl) false ()
    mixedBus with ⟨looks, resets, readies, starts, waits, refills, requests, returns, hcycles,
      hboards, -, hlooks, hphased, hskips, hdrops, hbarrier, hawaited, -⟩
  have hall : mixedUpdate.cycles mixedBus = looks.flatMap Look.cycles ++
      [resets, readies, starts, waits, refills, requests, returns].flatten.flatMap Share.cycles :=
    hcycles.trans (by simp)
  have hcurrent : ∀ x ∈ looks, x.isCurrent config.target = (x.board.slot == .first) := by
    intro x hx
    have hversions := versions?_of_fixedBus (d := mixedUpdate) (w := mixedBus) (hlooks x hx).1 <| by
      rw [hall]
      exact fun _ hmem => List.mem_append_left _ (List.mem_flatMap.mpr ⟨x, hx, hmem⟩)
    have hboard : x.board ∈ mixedRegistry.boards := by
      rw [← hboards]
      exact List.mem_map_of_mem hx
    have hfour : mixedRegistry.boards =
      [.geographic .first, .geographic .third, .geographic .fourth, .geographic .fifth] := rfl
    rw [Look.isCurrent, hversions]
    simp only [hfour, List.mem_cons, List.not_mem_nil, or_false] at hboard
    rcases hboard with h | h | h | h <;> rw [h] <;> decide
  have hrequested : ∀ slot, (∃ x ∈ requests, x.slot = slot) ↔
      (mixedUpdate.cycles mixedBus).any (Board.geographic slot).reboots = true := by
    intro slot
    rw [hall, hphased.any_reboots_iff]
  refine ⟨hregistry, rfl, looks, resets, readies, starts, waits, refills, requests, returns,
    hcycles, hboards, hphased, ?_, ?_, hdrops, hbarrier, hawaited, ?_, ?_⟩
  · have hslots : resets.map Share.slot = slotsOf (enlisted config looks) := by
      rw [slotsOf, ← hphased.are_reset.entered, List.map_map]
      rfl
    have hothers : looks.filter (fun x => !x.isCurrent config.target) =
        looks.filter ((fun b => !(b.slot == .first)) ∘ Look.board) :=
      List.filter_congr fun x hx => by rw [hcurrent x hx]; rfl
    rw [hslots, slotsOf_eq, boards_enlisted, hothers, ← List.filter_map, hboards]
    rfl
  · have hfirst : Board.geographic .first ∈ looks.map Look.board := by
      rw [hboards]
      decide
    rcases List.mem_map.mp hfirst with ⟨x, hx, hboard⟩
    have havoids := hskips x hx (by rw [hcurrent x hx, hboard]; rfl)
    rwa [hboard] at havoids
  · have hasked : ∀ slot ∈ [Slot.third, .fifth],
        (mixedUpdate.cycles mixedBus).any (Board.geographic slot).reboots = true := by
      decide +kernel
    intro slot hslot
    rcases (hrequested slot).mpr (hasked slot hslot) with ⟨x, hx, rfl⟩
    rcases mem_of_carriedOn (hphased.start_reboot.slot_mem hx) with ⟨y, hy, hyx, -⟩
    rcases mem_of_carriedOn (hphased.are_refilled.slot_mem hy) with ⟨z, hz, hzy, -⟩
    exact ⟨⟨z, hz, hzy.trans hyx⟩, ⟨x, hx, rfl⟩, hphased.mem_returns hx⟩
  · intro x hx hslot
    have hnone : (mixedUpdate.cycles mixedBus).any (Board.geographic .fourth).reboots = false := by
      decide +kernel
    have hasked := (hrequested .fourth).mp ⟨x, hx, hslot⟩
    rw [hnone] at hasked
    cases hasked

end CrateUpdate
end Reflash
