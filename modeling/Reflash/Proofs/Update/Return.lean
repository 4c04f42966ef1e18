import Reflash.Proofs.Rom.Polling
import Reflash.Proofs.Simulation.Crate
import Reflash.Proofs.Update.Steps
/-!
# Waiting for the return of a board

The wait for a board that reconfigures its FPGAs is a bounded loop, too: each poll probes the
control version, and reads it if the probe is answered. It ends at the first value that is driven.
With the two loops of a ROM session this makes three, and of each of them the answers of the bus
decide how many polls it takes, how many turns it tells, and how it ends.
-/

namespace Reflash

open Polling (Misses Hits)

namespace Board

variable {ω : Type} [Bus ω] {σ ε : Type} {b : Board}

def probeCycles (b : Board) (offset : UInt32) : Option UInt32 → List Access
  | none => [.probe (b.base + offset) false]
  | some value => [.probe (b.base + offset) true, .read (b.base + offset) value]

theorem tells_probe (hb : b.Fits) {offset : UInt32} (hoffset : offset ≤ Register.engineStatus)
    (s : σ) (w : ω) :
    ∃ answer w', (b.probe offset : Job σ ε (Option UInt32)).Tells s w
      (b.probeCycles offset answer) 0 (.ok answer) s w' := by
  let address := b.base + offset
  let w₁ := (Bus.probe w address).2
  have hprobe : (Job.ask (.probe address) : Job σ ε Bool).Tells s w
      [.probe address (Bus.probe w address).1] 0 (.ok (Bus.probe w address).1) s w₁ :=
    ⟨⟨rfl, rfl⟩, rfl⟩
  rw [probe, hb.address_eq hoffset, pure_bind]
  cases hanswered : (Bus.probe w address).1 with
  | true =>
      rw [hanswered] at hprobe
      let value := (Bus.read w₁ address).1
      let w₂ := (Bus.read w₁ address).2
      have hread : (Job.ask (.read address) : Job σ ε UInt32).Tells s w₁ [.read address value] 0
          (.ok value) s w₂ := ⟨⟨rfl, rfl⟩, rfl⟩
      have hcycles : b.probeCycles offset (some value) =
          [.probe address true] ++ [.read address value] := rfl
      refine ⟨some value, w₂, ?_⟩
      rw [hcycles, ← Nat.add_zero 0]
      exact hprobe.bind (hread.bind_silent (Routine.tells_pure (some value)))
  | false =>
      rw [hanswered] at hprobe
      exact ⟨none, _, hprobe.bind_silent (Routine.tells_pure _)⟩

end Board

namespace BoardUpdate

variable {ω : Type} [Bus ω] {b : Board} {u u' : BoardUpdate} {w w' : ω}

def isBack (answer : Option UInt32) : Bool := !answer.all (· == notDriven)

theorem tells_pollVersion (hb : b.Fits) (interval tries left : Nat) (u : BoardUpdate) (w : ω) :
    ∃ answers found told w', Polling.Ends isBack left answers found ∧
      told + found.toNat = answers.length ∧
      (pollVersion Exchange.tick b interval tries left).Tells u w
        (answers.flatMap (b.probeCycles Register.controlVersion)) told
        (if found then .ok () else .failed (.rebootTimeout tries)) u w' := by
  induction left generalizing w with
  | zero => exact ⟨[], false, 0, w, .none, rfl, Routine.tells_fail _⟩
  | succ left ih =>
      have hprobe : ∃ answer w₁,
          (b.probe Register.controlVersion : Job BoardUpdate RomError (Option UInt32)).Tells u w
            (b.probeCycles Register.controlVersion answer) 0 (.ok answer) u w₁ :=
        Board.tells_probe hb (by decide) u w
      obtain ⟨answer, w₁, hanswer⟩ := hprobe
      rw [pollVersion]
      cases hback : isBack answer with
      | true =>
          have hdriven : ¬answer.all (· == notDriven) = true := by simpa [isBack] using hback
          refine ⟨[answer], true, 0, w₁, .first hback, rfl, ?_⟩
          rw [List.flatMap_singleton]
          refine hanswer.bind_silent ?_
          rw [if_neg hdriven]
          exact Routine.tells_remark _
      | false =>
          have haway : answer.all (· == notDriven) = true := by simpa [isBack] using hback
          obtain ⟨answers, found, told, w', hends, htold, hloop⟩ := ih w₁
          refine ⟨answer :: answers, found, 0 + (1 + told), w', hends.cons hback, ?_, ?_⟩
          · rw [List.length_cons]
            omega
          · refine hanswer.bind ?_
            rw [if_pos haway]
            exact Routine.tells_tick.bind ((Routine.tells_pause interval).silent_bind hloop)

/-! ## A step that is concluded -/

section Conclude

variable {α : Type} {step : Step} {next : Phase} {work : Job BoardUpdate RomError α}
  {cycles : List Access} {told : Nat}

theorem tells_conclude_ok {a : α} (h : work.Tells u w cycles told (.ok a) u' w') :
    (conclude step next work).Tells u w cycles told (.ok a) { u' with phase := next } w' := by
  refine Routine.tells_get.silent_bind (h.attempt_ok.bind_silent ?_)
  refine (Routine.tells_remark _).silent_bind ?_
  exact (Routine.tells_modify _).silent_bind (Routine.tells_pure a)

theorem tells_conclude_failed {cause : RomError}
    (h : work.Tells u w cycles told (.failed cause) u' w') :
    (conclude step next work).Tells u w cycles told (.failed ⟨u.slot, step, cause⟩)
      { u' with phase := .failed ⟨u.slot, step, cause⟩ } w' := by
  refine Routine.tells_get.silent_bind (h.attempt_failed.bind_silent ?_)
  refine (Routine.tells_remark _).silent_bind ?_
  exact (Routine.tells_modify _).silent_bind (Routine.tells_fail _)

end Conclude

/-- A step that is asked for in another phase than its own is refused. -/
theorem tells_require {start : Phase} (hstart : start.failure? = none) (u : BoardUpdate)
    (step : Step) (w : ω) :
    (require start step).Tells u w [] 0
      (if u.phase = start then .ok () else .failed (u.refusal step)) u w := by
  refine Routine.tells_get.silent_bind ?_
  cases hfailure : u.failure? with
  | some failure =>
      have hne : u.phase ≠ start := by
        intro hphase
        rw [failure?, hphase, hstart] at hfailure
        cases hfailure
      rw [if_neg hne, refusal, hfailure]
      exact Routine.tells_fail failure
  | none =>
      by_cases hphase : u.phase = start
      · rw [if_pos hphase, if_neg (not_not_intro hphase)]
        exact Routine.tells_pure ()
      · rw [if_neg hphase, if_pos hphase, refusal, hfailure]
        exact Routine.tells_fail _

/-! ## The wait -/

/-- What a wait for a board to return from its reboot comes to, told by the answers to its polls:
it probes the control version and does nothing else, and it ends at the first answer that is a
version, or after all its turns. -/
structure RebootWait (u : BoardUpdate) (answers : List (Option UInt32)) (cycles : List Access)
    (ticks : Nat) (out : Outcome StepFailure Unit) (u' : BoardUpdate) : Prop where
  cycles_eq : cycles = answers.flatMap (u.board.probeCycles Register.controlVersion)
  ok_iff : out = .ok () ↔ answers.length ≤ u.rom.budgets.rebootTries ∧ Hits isBack answers
  timeout_iff :
    out = .failed ⟨u.slot, .reboot, .rebootTimeout u.rom.budgets.rebootTries⟩ ↔
      answers.length = u.rom.budgets.rebootTries ∧ Misses isBack answers
  ends : out = .ok () ∧ u' = { u with phase := .rebooted } ∨
    let failure : StepFailure := ⟨u.slot, .reboot, .rebootTimeout u.rom.budgets.rebootTries⟩
    out = .failed failure ∧ u' = { u with phase := .failed failure }
  ticks_ok : out = .ok () → ticks = answers.length - 1
  ticks_failed (failure : StepFailure) :
    out = .failed failure → ticks = u.rom.budgets.rebootTries

theorem exists_rebootWait (hb : u.board.Fits) (hphase : u.phase = .rebooting) (w : ω) :
    let wait : Exchange (Outcome StepFailure Unit × BoardUpdate) := awaitReboot Exchange.tick u
    let ((out, u'), _) := wait.run Bus.handler w
    ∃ answers, u.RebootWait answers (wait.cycles w) (wait.ticks w) out u' := by
  intro wait
  obtain ⟨answers, found, told, w', hends, htold, hpoll⟩ := tells_pollVersion hb
    u.rom.timing.rebootPollInterval u.rom.budgets.rebootTries u.rom.budgets.rebootTries u w
  have hrequire := tells_require (show Phase.rebooting.failure? = none from rfl) u .reboot w
  rw [if_pos hphase] at hrequire
  -- What the step does in its phase is to poll, and nothing before that asks for anything.
  have hwait {cycles out u'} (h : (conclude .reboot .rebooted
      (pollVersion Exchange.tick u.board u.rom.timing.rebootPollInterval
        u.rom.budgets.rebootTries u.rom.budgets.rebootTries)).Tells u w cycles told out u' w') :
      (awaitReboot Exchange.tick).Tells u w cycles told out u' w' :=
    hrequire.silent_bind (Routine.tells_get.silent_bind h)
  cases hends with
  | found hlength hhits =>
      have hdone := hwait (tells_conclude_ok hpoll)
      have hrun : wait.run Bus.handler w = _ := hdone.run_eq
      have hticks : wait.ticks w = told := hdone.ticks_eq
      have htold' : told + 1 = answers.length := htold
      rw [hrun]
      refine ⟨answers, hdone.cycles_eq, iff_of_true rfl ⟨hlength, hhits⟩, ?_, .inl ⟨rfl, rfl⟩,
        fun _ => ?_, nofun⟩
      · exact iff_of_false nofun fun h => hhits.not_misses h.2
      · omega
  | exhausted hlength hmisses =>
      have hdone := hwait (tells_conclude_failed hpoll)
      have hrun : wait.run Bus.handler w = _ := hdone.run_eq
      have hticks : wait.ticks w = told := hdone.ticks_eq
      have htold' : told + 0 = answers.length := htold
      rw [hrun]
      refine ⟨answers, hdone.cycles_eq, ?_, iff_of_true rfl ⟨hlength, hmisses⟩,
        .inr ⟨rfl, rfl⟩, nofun, fun _ _ => ?_⟩
      · exact iff_of_false nofun fun h => h.2.not_misses hmisses
      · omega

/-- The three polling loops are exact. On any bus, the wait for the engine and the wait for the end
of a write leave the state alone and end as their answers say; the wait for a board's return does
so where it is due, and is refused without a bus cycle where it is not. -/
theorem polling_is_exact {σ : Type} (hb : b.Fits) (w : ω) :
    (∀ (tries : Nat) (s : σ),
      let wait : Exchange (Outcome RomError Nat × σ) := b.waitReady tries s
      let ((out, s'), _) := wait.run Bus.handler w
      s' = s ∧ ∃ polls, b.ReadyWait tries polls (wait.cycles w) (wait.ticks w) out) ∧
    (∀ (tries readyTries interval : Nat) (s : σ),
      let wait : Exchange (Outcome RomError Nat × σ) :=
        b.waitWrite tries readyTries interval Exchange.tick s
      let ((out, s'), _) := wait.run Bus.handler w
      s' = s ∧ ∃ reads rest,
        b.WriteWait readyTries tries reads rest (wait.cycles w) (wait.ticks w) out) ∧
    ∀ u : BoardUpdate, u.board = b →
      let wait : Exchange (Outcome StepFailure Unit × BoardUpdate) := awaitReboot Exchange.tick u
      (u.phase = .rebooting →
        let ((out, u'), _) := wait.run Bus.handler w
        ∃ answers, u.RebootWait answers (wait.cycles w) (wait.ticks w) out u') ∧
      (u.phase ≠ .rebooting →
        wait.run Bus.handler w = ((.failed (u.refusal .reboot), u), w) ∧ wait.cycles w = [] ∧
          wait.ticks w = 0) := by
  refine ⟨fun tries s => Board.exists_readyWait hb tries s w, fun tries readyTries interval s =>
    Board.exists_writeWait hb tries readyTries interval s w, ?_⟩
  rintro u rfl wait
  refine ⟨fun hphase => exists_rebootWait hb hphase w, fun hphase => ?_⟩
  have hrequire := tells_require (show Phase.rebooting.failure? = none from rfl) u .reboot w
  rw [if_neg hphase] at hrequire
  have hwait : (awaitReboot Exchange.tick).Tells u w [] 0 (.failed (u.refusal .reboot)) u w :=
    hrequire.bind_failed
  exact ⟨hwait.run_eq, hwait.cycles_eq, hwait.ticks_eq⟩

/-- The engine is ready at the third of three polls, or not in time; a write is over at the third
status, and a board is back at the third probe, after two ticks each. -/
theorem polling_is_exact_late :
    let b := Board.geographic .third
    let ready : Exchange (Outcome RomError Nat × Unit) := b.waitReady 3 ()
    let write : Exchange (Outcome RomError Nat × Unit) := b.waitWrite 5 3 0 Exchange.tick ()
    let u : BoardUpdate := { new b { rebootTries := 4 } .immediate with phase := .rebooting }
    let reboot : Exchange (Outcome StepFailure Unit × BoardUpdate) := awaitReboot Exchange.tick u
    b.Fits ∧ u.board = b ∧ u.phase = .rebooting ∧
      (∃ polls, polls.length = 3 ∧
        b.ReadyWait 3 polls (ready.cycles (LateBus.mk 2 0 2)) 0 (.ok 3)) ∧
      (∃ polls, Misses Board.findsReady polls ∧
        b.ReadyWait 3 polls (ready.cycles (LateBus.mk 3 0 2)) 0 (.failed (.readyTimeout 3))) ∧
      (∃ reads rest, reads.length = 3 ∧
        b.WriteWait 3 5 reads rest (write.cycles (LateBus.mk 6 3 2)) 2 (.ok 3)) ∧
      ∃ answers, answers.length = 3 ∧
        u.RebootWait answers (reboot.cycles (LateBus.mk 2 notDriven 2)) 2 (.ok ())
          { u with phase := .rebooted } := by
  intro b ready write u reboot
  have hb : b.Fits := Slot.third.fits_geographic
  have hready : ∀ {w w' : LateBus} {out}, ready.run Bus.handler w = ((out, ()), w') →
      ∃ polls, b.ReadyWait 3 polls (ready.cycles w) 0 out := by
    intro w w' out hrun
    have hexact := (polling_is_exact hb w).1 3 ()
    rw [show b.waitReady 3 () = ready from rfl] at hexact
    simp only [hrun] at hexact
    rcases hexact with ⟨-, polls, hpolls⟩
    rw [hpolls.ticks_eq] at hpolls
    exact ⟨polls, hpolls⟩
  refine ⟨hb, rfl, rfl, ?_, ?_, ?_, ?_⟩
  · have hrun : ready.run Bus.handler (LateBus.mk 2 0 2) = ((.ok 3, ()), ⟨0, 0, 2⟩) := by
      decide +kernel
    rcases hready hrun with ⟨polls, hpolls⟩
    exact ⟨polls, ((hpolls.ok_iff 3).mp rfl).1, hpolls⟩
  · have hrun : ready.run Bus.handler (LateBus.mk 3 0 2) =
        ((.failed (.readyTimeout 3), ()), ⟨0, 0, 2⟩) := by
      decide +kernel
    rcases hready hrun with ⟨polls, hpolls⟩
    exact ⟨polls, (hpolls.timeout_iff.mp rfl).2, hpolls⟩
  -- The two other buses stay unopened until the run on them is known.
  · generalize hw : LateBus.mk 6 3 2 = w
    have hrun : write.run Bus.handler w = ((.ok 3, ()), ⟨0, 3, 2⟩) := by
      rw [← hw]
      decide +kernel
    have hexact := (polling_is_exact hb w).2.1 5 3 0 ()
    rw [show b.waitWrite 5 3 0 Exchange.tick () = write from rfl] at hexact
    simp only [hrun] at hexact
    rcases hexact with ⟨-, reads, rest, hreads⟩
    rw [hreads.ticks_ok 3 rfl] at hreads
    exact ⟨reads, rest, ((hreads.ok_iff 3).mp rfl).1, hreads⟩
  · generalize hw : LateBus.mk 2 notDriven 2 = w
    have hrun : reboot.run Bus.handler w =
        ((.ok (), { u with phase := .rebooted }), ⟨0, notDriven, 2⟩) := by
      rw [← hw]
      with_unfolding_all rfl
    have hticks : reboot.ticks w = 2 := by
      rw [← hw]
      decide +kernel
    have hexact := ((polling_is_exact (σ := Unit) hb w).2.2 u rfl).1 rfl
    rw [show awaitReboot Exchange.tick u = reboot from rfl] at hexact
    simp only [hrun, hticks] at hexact
    rcases hexact with ⟨answers, hanswers⟩
    have hlength := hanswers.ticks_ok rfl
    exact ⟨answers, by omega, hanswers⟩

end BoardUpdate
end Reflash
