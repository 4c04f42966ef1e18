import Reflash.Proofs.Update.Path
/-!
# Histories of an update

A caller may ask for the steps of an update in any order, with any images, again after failures and
on any hardware. The history lists the calls with their bus cycles and how they ended. Whatever it
is, the board is rebooted at most once, and only into an image that was read back in full.
-/

namespace Reflash.BoardUpdate

inductive Call where
  | reset
  | waitReady
  | startErase
  | awaitErase
  | program (file : Image)
  | download (sizeBytes : Nat)
  | verify (file : Image)
  | startReboot
  | awaitReboot
  | run (file : Image)

def Call.job : Call → UpdateJob Unit
  | reset => BoardUpdate.reset
  | waitReady => BoardUpdate.waitReady
  | startErase => BoardUpdate.startErase
  | awaitErase => BoardUpdate.awaitErase Exchange.tick
  | program file => BoardUpdate.program file Exchange.tick
  | download sizeBytes => BoardUpdate.download sizeBytes Exchange.tick
  | verify file => BoardUpdate.verify file Exchange.tick
  | startReboot => BoardUpdate.startReboot
  | awaitReboot => BoardUpdate.awaitReboot Exchange.tick
  | run file => BoardUpdate.run file

/-- A call that has been made, the bus cycles that it made, and how it ended. -/
structure CallRecord where
  call : Call
  cycles : List Access
  out : Outcome StepFailure Unit

def cyclesIn (records : List CallRecord) : List Access := records.flatMap CallRecord.cycles

theorem cyclesIn_cons (record : CallRecord) (records : List CallRecord) :
    cyclesIn (record :: records) = record.cycles ++ cyclesIn records := rfl

def history {σ : Type} [Bus σ] : List Call → BoardUpdate → σ → List CallRecord
  | [], _, _ => []
  | call :: rest, u, s =>
    let ((out, u'), s') := (call.job u).run Bus.handler s
    ⟨call, Exchange.cycles (call.job u) s, out⟩ :: history rest u' s'

/-- The record is of a whole update to this image that got as far as the reboot. -/
def CallRecord.Reboots (record : CallRecord) (b : Board) (file : Image) : Prop :=
  record.call = .run file ∧
    (record.out = .ok () ∨ ∃ cause, record.out = .failed ⟨b.slot, .reboot, cause⟩)

/-- The image passed a comparison of its own among these calls. -/
def Passed (records : List CallRecord) (file : Image) : Prop :=
  ∃ record ∈ records, record.call = .verify file ∧ record.out = .ok ()

variable {b : Board} {checked : Image → Prop} {u u' : BoardUpdate} {before cycles : List Access}

private theorem append_cons_inj {α : Type} {p : α → Bool} {t t' rest rest' : List α} {a a' : α}
    (h : t ++ a :: rest = t' ++ a' :: rest') (ha : p a = true) (ht' : t'.countP p = 0)
    (hrest' : rest'.countP p = 0) : t = t' := by
  induction t generalizing t' with
  | nil =>
      cases t' with
      | nil => rfl
      | cons x xs =>
          obtain ⟨rfl, -⟩ := List.cons.inj h
          rw [List.countP_cons_of_pos ha] at ht'
          omega
  | cons y ys ih =>
      cases t' with
      | nil =>
          obtain ⟨-, hrest⟩ := List.cons.inj h
          rw [← hrest] at hrest'
          exact absurd ha (List.countP_eq_zero.mp hrest' a (by simp))
      | cons x xs =>
          obtain ⟨rfl, hrest⟩ := List.cons.inj h
          rw [List.countP_cons] at ht'
          rw [ih hrest (by omega)]

theorem Passed.mono {records records' : List CallRecord} {file : Image}
    (h : Passed records file) (hrecords : records ⊆ records') : Passed records' file := by
  obtain ⟨record, hmem, hpassed⟩ := h
  exact ⟨record, hrecords hmem, hpassed⟩

/-! ## One call -/

section Call

variable (hb : b.Fits)
include hb

theorem keeps_job (call : Call) :
    call.job.Keeps b.Updates (fun u => u.board = b) ∨ call = .startReboot ∨
      ∃ file, call = .run file := by
  have hticks := Exchange.isSilent_tick
  cases call with
  | reset => exact .inl (keeps_reset hb)
  | waitReady => exact .inl (keeps_waitReady hb)
  | startErase => exact .inl (keeps_startErase hb)
  | awaitErase => exact .inl (keeps_awaitErase hb hticks)
  | program file => exact .inl (keeps_program hb hticks file)
  | download sizeBytes => exact .inl (keeps_download hb hticks sizeBytes)
  | verify file => exact .inl (keeps_verify hticks file)
  | startReboot => exact .inr (.inl rfl)
  | awaitReboot => exact .inl (keeps_awaitReboot hb hticks)
  | run file => exact .inr (.inr ⟨file, rfl⟩)

theorem tracks_call {r : CallRecord} (hu : Tracks b checked u before)
    (h : r.call.job.Ends u r.cycles r.out u') :
    Tracks b (fun file => checked file ∨ Passed [r] file) u' (before ++ r.cycles) := by
  obtain ⟨call, cycles, out⟩ := r
  have hticks := Exchange.isSilent_tick
  cases call with
  | reset => exact (tracked_reset hb hu h).mono fun _ => .inl
  | waitReady => exact (tracked_waitReady hb hu h).mono fun _ => .inl
  | startErase => exact (tracked_startErase hb hu h).mono fun _ => .inl
  | awaitErase => exact (tracked_awaitErase hb hticks hu h).mono fun _ => .inl
  | program file => exact (tracked_program hb hticks file hu h).mono fun _ => .inl
  | download sizeBytes => exact (tracked_download hb hticks sizeBytes hu h).mono fun _ => .inl
  | verify file =>
      refine (tracks_verify hticks hu h).mono ?_
      rintro image (hchecked | ⟨rfl, hok⟩)
      · exact .inl hchecked
      · exact .inr ⟨_, List.mem_singleton_self _, rfl, hok⟩
  | startReboot => exact (tracked_startReboot hb hu h).mono fun _ => .inl
  | awaitReboot => exact (tracked_awaitReboot hb hticks hu h).mono fun _ => .inl
  | run file => exact (ends_run hb hu h).1.mono fun _ => .inl

/-- A call reboots the board only behind the words of an image that passed a comparison before, or
that the call itself updates the board to. -/
theorem call_reboots {record : CallRecord} (hu : Tracks b checked u before)
    (h : record.call.job.Ends u record.cycles record.out u') {t rest : List Access}
    {cycle : Access} (hsplit : record.cycles = t ++ cycle :: rest)
    (hcycle : b.reboots cycle = true) :
    ∃ file words, file.contents? = some words ∧ before ++ t ∈ b.readBack words ∧
      (checked file ∨ record.Reboots b file) := by
  have hmem : cycle ∈ record.cycles := by simp [hsplit]
  obtain ⟨call, cycles, out⟩ := record
  obtain hkeeps | rfl | ⟨file, rfl⟩ := keeps_job hb call
  · have hnone := countP_reboots_eq_zero hkeeps hu.board_eq h
    exact absurd hcycle (List.countP_eq_zero.mp hnone cycle hmem)
  · obtain ⟨-, hcycles, -⟩ | ⟨hverified, hcycles, -⟩ := ends_startReboot hb hu.board_eq h
    · rw [hcycles] at hmem
      cases hmem
    · have hat : t ++ cycle :: rest = [] ++ _ := hsplit.symm.trans hcycles
      obtain rfl := append_cons_inj hat hcycle rfl rfl
      have hpath := hu.mem_path
      rw [path, hverified] at hpath
      obtain ⟨file, words, hchecked, hwords, hread⟩ := hpath
      rw [List.append_nil]
      exact ⟨file, words, hwords, hread, .inl hchecked⟩
  · obtain ⟨-, hnone | ⟨rfl, hout, words, made, after, hwords, hmade, hcycles, hm, ha⟩⟩ :=
      ends_run hb hu h
    · exact absurd hcycle (List.countP_eq_zero.mp hnone cycle hmem)
    · obtain rfl := append_cons_inj (hsplit.symm.trans hcycles) hcycle hm ha
      exact ⟨file, words, hwords, hmade, .inr ⟨rfl, hout⟩⟩

end Call

/-! ## Calls in a row -/

variable {σ : Type} [Bus σ]

theorem countP_reboots_history (hb : b.Fits) (calls : List Call) (s : σ)
    (hu : Tracks b checked u before) :
    (before ++ cyclesIn (history calls u s)).countP b.reboots ≤ 1 := by
  induction calls generalizing u s before checked with
  | nil =>
      have hcycles : cyclesIn (history [] u s) = [] := rfl
      rw [hcycles, List.append_nil]
      exact hu.countP_le_one
  | cons call rest ih =>
      have hends := Routine.ends_run call.job u s
      rw [history, cyclesIn_cons, ← List.append_assoc]
      have hrecord := tracks_call (r := ⟨call, Exchange.cycles (call.job u) s, _⟩) hb hu hends
      exact ih _ hrecord

theorem reboots_history (hb : b.Fits) (calls : List Call) (s : σ)
    (hu : Tracks b checked u before) {earlier later : List CallRecord} {record : CallRecord}
    (hrecords : history calls u s = earlier ++ record :: later) {t rest : List Access}
    {cycle : Access} (hsplit : record.cycles = t ++ cycle :: rest)
    (hcycle : b.reboots cycle = true) :
    ∃ file words, file.contents? = some words ∧
      before ++ cyclesIn earlier ++ t ∈ b.readBack words ∧
      (checked file ∨ Passed earlier file ∨ record.Reboots b file) := by
  induction calls generalizing u s before checked earlier with
  | nil => exact absurd hrecords.symm (by simp [history])
  | cons call calls ih =>
      have hends := Routine.ends_run call.job u s
      rw [history] at hrecords
      -- The record is of this call, or of one of those behind it.
      cases earlier with
      | nil =>
          obtain ⟨rfl, -⟩ := List.cons.inj hrecords
          obtain ⟨file, words, hwords, hread, hfile⟩ := call_reboots hb hu hends hsplit hcycle
          refine ⟨file, words, hwords, ?_, hfile.imp_right .inr⟩
          rw [show cyclesIn [] = [] from rfl, List.append_nil]
          exact hread
      | cons first earlier =>
          obtain ⟨rfl, hrest⟩ := List.cons.inj hrecords
          have hrecord := tracks_call (r := ⟨call, Exchange.cycles (call.job u) s, _⟩) hb hu hends
          obtain ⟨file, words, hwords, hread, hfile⟩ := ih _ hrecord hrest
          refine ⟨file, words, hwords, ?_, ?_⟩
          · rw [cyclesIn_cons, ← List.append_assoc]
            exact hread
          · obtain (hchecked | hfirst) | hlater := hfile
            · exact .inl hchecked
            · refine .inr (.inl (hfirst.mono ?_))
              exact List.cons_subset.mpr ⟨List.mem_cons_self, List.nil_subset _⟩
            · exact .inr (hlater.imp_left fun hpassed => hpassed.mono (List.subset_cons_self _ _))

/-- A board is asked to reboot at most once, whatever steps its update is asked for and whatever
the bus answers; and then it has been reset, its ROM was erased and programmed, and all words of a
loaded image were read back just before, an image that had passed a comparison. -/
theorem reboots_only_verified (hb : b.Fits) (budgets : Budgets) (timing : Timing)
    (calls : List Call) (s : σ) :
    (cyclesIn (history calls (.new b budgets timing) s)).countP b.reboots ≤ 1 ∧
      ∀ earlier record later before cycle after,
        history calls (.new b budgets timing) s = earlier ++ record :: later →
        record.cycles = before ++ cycle :: after → b.reboots cycle = true →
        ∃ file words, file.contents? = some words ∧
          cyclesIn earlier ++ before ∈ b.readBack words ∧
          (Passed earlier file ∨ record.Reboots b file) := by
  have hnew : Tracks b (fun _ => False) (.new b budgets timing) [] := tracks_new budgets timing
  constructor
  · exact countP_reboots_history hb calls s hnew
  · intro earlier record later before cycle after hrecords hsplit hcycle
    obtain ⟨file, words, hwords, hread, hfile⟩ :=
      reboots_history hb calls s hnew hrecords hsplit hcycle
    exact ⟨file, words, hwords, hread, hfile.resolve_left id⟩

/-- Where every register reads as a ready engine, a set write-enable latch and no write in progress,
an image of that same word is taken for verified, and the board is rebooted. -/
theorem reboots_only_verified_steady :
    let b := Board.geographic .first
    let cycles := cyclesIn (history [.verify {}, .run (.ofWords [2]), .startReboot]
      (.new b {} .immediate) (SteadyBus.mk 2))
    b.Fits ∧ (∃ cycle ∈ cycles, b.reboots cycle = true) ∧ cycles.countP b.reboots ≤ 1 :=
  ⟨by decide, by decide +kernel, (reboots_only_verified (by decide) {} .immediate _ _).1⟩

end Reflash.BoardUpdate
