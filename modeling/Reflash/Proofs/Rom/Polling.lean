import Mathlib.Algebra.Order.BigOperators.Group.List
import Mathlib.Algebra.Order.Group.Nat
import Reflash.Proofs.Bus.Ticks
import Reflash.Proofs.Rom.Cycles
/-!
# Bounded polling

The polling loops, on any bus: the answers that a loop gets are the bus cycles that it makes, and
they decide how it ends. It ends at the first hit, or when its turns are used up without one. A wait
for the end of a write has a third way to end, as every status read waits for the engine twice and
gives up when the engine does not answer in time.
-/

namespace Reflash

/-! ## Answers to polls -/

namespace Polling

variable {α : Type} {hit : α → Bool} {turns : Nat} {a : α} {answers : List α} {found : Bool}

def Misses (hit : α → Bool) (answers : List α) : Prop := ∀ a ∈ answers, hit a = false

def Hits (hit : α → Bool) (answers : List α) : Prop :=
  ∃ misses last, answers = misses ++ [last] ∧ Misses hit misses ∧ hit last = true

/-- What a loop of at most so many polls gets: it ends with the first hit, or without one when all
turns are used up. -/
inductive Ends (hit : α → Bool) (turns : Nat) (answers : List α) : Bool → Prop
  | found (hlength : answers.length ≤ turns) (hhits : Hits hit answers) :
    Ends hit turns answers true
  | exhausted (hlength : answers.length = turns) (hmisses : Misses hit answers) :
    Ends hit turns answers false

theorem Misses.cons (ha : hit a = false) (h : Misses hit answers) : Misses hit (a :: answers) :=
  List.forall_mem_cons.mpr ⟨ha, h⟩

theorem Hits.single (ha : hit a = true) : Hits hit [a] := ⟨[], a, rfl, nofun, ha⟩

theorem Hits.cons (ha : hit a = false) : Hits hit answers → Hits hit (a :: answers)
  | ⟨misses, last, hanswers, hmisses, hlast⟩ =>
    ⟨a :: misses, last, by rw [hanswers, List.cons_append], hmisses.cons ha, hlast⟩

theorem Hits.not_misses (h : Hits hit answers) : ¬Misses hit answers := by
  obtain ⟨misses, last, rfl, -, hlast⟩ := h
  intro hall
  have hmiss := hall last (by simp)
  rw [hlast] at hmiss
  cases hmiss

theorem Hits.ok_iff {ε : Type} (hlength : answers.length ≤ turns) (h : Hits hit answers) (k : Nat) :
    (.ok answers.length : Outcome ε Nat) = .ok k ↔
      answers.length = k ∧ k ≤ turns ∧ Hits hit answers := by
  rw [Outcome.ok.injEq]
  constructor
  · rintro rfl
    exact ⟨rfl, hlength, h⟩
  · exact And.left

theorem Ends.none : Ends hit 0 ([] : List α) false := .exhausted rfl nofun

theorem Ends.first (ha : hit a = true) : Ends hit (turns + 1) [a] true :=
  .found (Nat.le_add_left 1 turns) (.single ha)

theorem Ends.cons (ha : hit a = false) (h : Ends hit turns answers found) :
    Ends hit (turns + 1) (a :: answers) found := by
  cases h with
  | found hlength hhits => exact .found (Nat.succ_le_succ hlength) (hhits.cons ha)
  | exhausted hlength hmisses => exact .exhausted (congrArg Nat.succ hlength) (hmisses.cons ha)

theorem Ends.exhausted_iff (h : Ends hit turns answers found) :
    found = false ↔ answers.length = turns ∧ Misses hit answers := by
  cases h with
  | found _ hhits => exact iff_of_false nofun fun hmisses => hhits.not_misses hmisses.2
  | exhausted hlength hmisses => exact iff_of_true rfl ⟨hlength, hmisses⟩

theorem Ends.ok_iff {ε : Type} {e : ε} (h : Ends hit turns answers found) (k : Nat) :
    (if found then .ok answers.length else .failed e : Outcome ε Nat) = .ok k ↔
      answers.length = k ∧ k ≤ turns ∧ Hits hit answers := by
  cases h with
  | found hlength hhits => exact hhits.ok_iff hlength k
  | exhausted _ hmisses => exact iff_of_false nofun fun h => h.2.2.not_misses hmisses

end Polling

open Polling (Misses Hits)

namespace Board

variable {ω : Type} [Bus ω] {σ ε : Type} {b : Board} {s : σ} {w : ω}

/-! ## Single requests -/

section Requests

variable (hb : b.Fits)
include hb

theorem makes_read {offset : UInt32} (hoffset : offset ≤ Register.engineStatus) :
    (b.read offset : Job σ ε UInt32).Makes s w
      [.read (b.base + offset) (Bus.read w (b.base + offset)).1]
      (.ok (Bus.read w (b.base + offset)).1) s (Bus.read w (b.base + offset)).2 := by
  rw [hb.read_eq hoffset]
  exact ⟨rfl, rfl⟩

theorem makes_issue (cmd : Rom.Command) :
    ∃ w', (b.issue cmd : Job σ ε Unit).Makes s w (b.frameCycles cmd) (.ok ()) s w' := by
  obtain ⟨cycles, out, s', w', hmakes⟩ := Routine.exists_makes (b.issue cmd : Job σ ε Unit) s w
  obtain ⟨rfl, rfl, rfl⟩ := ends_writeAll hb (fun _ => cmd.offset_le_of_mem_frame)
    (Job.ends_remark_bind hmakes.ends)
  exact ⟨w', hmakes⟩

/-! ## Waiting for the engine -/

def statusPolls (b : Board) (polls : List UInt32) : List Access :=
  polls.map (.read (b.base + Register.engineStatus))

def findsReady (status : UInt32) : Bool := hasBits status EngineStatus.ready

theorem makes_awaitReady {tries left : Nat} (hleft : left ≤ tries) (s : σ) (w : ω) :
    ∃ polls found w', Polling.Ends findsReady left polls found ∧
      (b.awaitReady tries left : Job σ RomError Nat).Makes s w (b.statusPolls polls)
        (if found then .ok (tries - left + polls.length) else .failed (.readyTimeout tries)) s
        w' := by
  -- The loop counts down the turns that are left, and tells how many it has used.
  induction left generalizing w with
  | zero => exact ⟨[], false, w, .none, Routine.makes_fail _⟩
  | succ left ih =>
      let status := (Bus.read w (b.base + Register.engineStatus)).1
      let w₁ := (Bus.read w (b.base + Register.engineStatus)).2
      have hpoll : (b.engineReady : Job σ RomError Bool).Makes s w (b.statusPolls [status])
          (.ok (findsReady status)) s w₁ :=
        (makes_read hb (by decide)).bind_silent (Routine.makes_pure _)
      cases hready : findsReady status with
      | true =>
          rw [hready] at hpoll
          have hcount : tries - left = tries - (left + 1) + [status].length := by
            rw [List.length_singleton]
            omega
          refine ⟨[status], true, w₁, .first hready, ?_⟩
          rw [awaitReady, if_pos rfl, ← hcount]
          exact hpoll.bind_silent (Routine.makes_pure (tries - left))
      | false =>
          rw [hready] at hpoll
          obtain ⟨polls, found, w', hends, hrest⟩ := ih (by omega) w₁
          have hcount : tries - left + polls.length =
              tries - (left + 1) + (status :: polls).length := by
            rw [List.length_cons]
            omega
          refine ⟨status :: polls, found, w', hends.cons hready, ?_⟩
          rw [awaitReady, ← hcount]
          exact hpoll.bind hrest

theorem makes_waitReady (tries : Nat) (s : σ) (w : ω) :
    ∃ polls found w', Polling.Ends findsReady tries polls found ∧
      (b.waitReady tries : Job σ RomError Nat).Makes s w (b.statusPolls polls)
        (if found then .ok polls.length else .failed (.readyTimeout tries)) s w' := by
  obtain ⟨polls, found, w', hends, hmakes⟩ := makes_awaitReady hb tries.le_refl s w
  rw [Nat.sub_self, Nat.zero_add] at hmakes
  exact ⟨polls, found, w', hends, hmakes⟩

end Requests

/-- What a wait for the engine comes to, told by the answers to its polls: it reads the status of
the engine and does nothing else, and it ends at the first answer that shows the engine ready, or
after all its turns. -/
structure ReadyWait (b : Board) (tries : Nat) (polls : List UInt32) (cycles : List Access)
    (ticks : Nat) (out : Outcome RomError Nat) : Prop where
  cycles_eq : cycles = polls.map (.read (b.base + Register.engineStatus))
  ticks_eq : ticks = 0
  ok_iff (k : Nat) : out = .ok k ↔ polls.length = k ∧ k ≤ tries ∧ Hits findsReady polls
  timeout_iff : out = .failed (.readyTimeout tries) ↔
    polls.length = tries ∧ Misses findsReady polls
  ends : (∃ k, out = .ok k) ∨ out = .failed (.readyTimeout tries)

theorem never_ticks_waitReady (hb : b.Fits) (tries : Nat) :
    (b.waitReady tries : Job σ RomError Nat).Keeps (fun r : Request => r.isTick = false)
      fun _ => True :=
  keeps_awaitReady hb (by rfl) tries tries

theorem exists_readyWait (hb : b.Fits) (tries : Nat) (s : σ) (w : ω) :
    let wait : Exchange (Outcome RomError Nat × σ) := b.waitReady tries s
    (wait.run Bus.handler w).1.2 = s ∧
      ∃ polls, b.ReadyWait tries polls (wait.cycles w) (wait.ticks w)
        (wait.run Bus.handler w).1.1 := by
  intro wait
  obtain ⟨polls, found, w', hends, hmakes⟩ := makes_waitReady hb tries s w
  have hticks : wait.ticks w = 0 := (hmakes.tells trivial (never_ticks_waitReady hb tries)).ticks_eq
  have hrun : wait.run Bus.handler w = _ := hmakes.run_eq
  rw [hrun]
  refine ⟨rfl, polls, hmakes.cycles_eq, hticks, hends.ok_iff, ?_, ?_⟩
  · rw [← hends.exhausted_iff]
    cases found <;> simp
  · cases found <;> simp

/-! ## Waiting for the end of a write -/

/-- A status read: the answers to the polls before its command, those to the polls behind it, and
the status. -/
structure StatusRead where
  before : List UInt32
  behind : List UInt32
  status : UInt32

namespace StatusRead

def cycles (b : Board) (r : StatusRead) : List Access :=
  b.statusPolls r.before ++ (b.frameCycles { opcode := .readStatus } ++
    (b.statusPolls r.behind ++ [.read (b.base + Register.readback) r.status]))

structure InTime (readyTries : Nat) (r : StatusRead) : Prop where
  hits_before : Hits findsReady r.before
  length_before : r.before.length ≤ readyTries
  hits_behind : Hits findsReady r.behind
  length_behind : r.behind.length ≤ readyTries

def isOver (r : StatusRead) : Bool := !hasBits r.status RomStatus.writing

end StatusRead

/-- The bus cycles of a status read that is given up, as the engine is not ready in time: before
the command, or behind it. -/
inductive GivesUp (b : Board) (readyTries : Nat) : List Access → Prop
  | before {polls : List UInt32} (hlength : polls.length = readyTries)
      (hmisses : Misses findsReady polls) : GivesUp b readyTries (b.statusPolls polls)
  | behind {before polls : List UInt32} (hhits : Hits findsReady before)
      (hbefore : before.length ≤ readyTries) (hlength : polls.length = readyTries)
      (hmisses : Misses findsReady polls) :
      GivesUp b readyTries (b.statusPolls before ++
        (b.frameCycles { opcode := .readStatus } ++ b.statusPolls polls))

theorem never_ticks_readStatus (hb : b.Fits) (readyTries : Nat) :
    (b.readStatus readyTries : Job σ RomError UInt32).Keeps (fun r : Request => r.isTick = false)
      fun _ => True := by
  have hwait := never_ticks_waitReady (σ := σ) hb readyTries
  refine .bind hwait fun _ => .bind (keeps_issue hb rfl fun _ _ => rfl) fun _ => ?_
  exact .bind hwait fun _ => keeps_readback hb rfl

theorem makes_readStatus (hb : b.Fits) (readyTries : Nat) (s : σ) (w : ω) :
    (∃ r w', StatusRead.InTime readyTries r ∧
      (b.readStatus readyTries : Job σ RomError UInt32).Makes s w (r.cycles b) (.ok r.status) s
        w') ∨
      ∃ rest w', b.GivesUp readyTries rest ∧
        (b.readStatus readyTries : Job σ RomError UInt32).Makes s w rest
          (.failed (.readyTimeout readyTries)) s w' := by
  obtain ⟨before, found, w₁, hends, hbefore⟩ := makes_waitReady hb readyTries s w
  rw [readStatus]
  -- Either wait for the engine can be the one that gives the status read up.
  cases hends with
  | exhausted hlength hmisses =>
      exact .inr ⟨_, w₁, .before hlength hmisses, hbefore.bind_failed⟩
  | found hlength hhits =>
      obtain ⟨w₂, hissue⟩ := makes_issue (ε := RomError) (s := s) (w := w₁) hb
        { opcode := .readStatus }
      obtain ⟨behind, found', w₃, hends', hbehind⟩ := makes_waitReady hb readyTries s w₂
      cases hends' with
      | exhausted hlength' hmisses =>
          refine .inr ⟨_, w₃, .behind hhits hlength hlength' hmisses, ?_⟩
          exact hbefore.bind (hissue.bind hbehind.bind_failed)
      | found hlength' hhits' =>
          let status := (Bus.read w₃ (b.base + Register.readback)).1
          have hread : (b.readback : Job σ RomError UInt32).Makes s w₃
              [.read (b.base + Register.readback) status] (.ok status) s _ :=
            makes_read hb (by decide)
          exact .inl ⟨⟨before, behind, status⟩, _, ⟨hhits, hlength, hhits', hlength'⟩,
            hbefore.bind (hissue.bind (hbehind.bind hread))⟩

/-- How a wait for the end of a write ends, with `left` out of `tries` turns, after these status
reads: the bus cycles that it has made, the turns that it has told, and the outcome. -/
inductive WriteEnds (b : Board) (readyTries tries left : Nat) (reads : List StatusRead) :
    List Access → Nat → Outcome RomError Nat → Prop
  | ended {told : Nat} (hlength : reads.length ≤ left) (hhits : Hits StatusRead.isOver reads)
      (htold : told + 1 = reads.length) :
      WriteEnds b readyTries tries left reads (reads.flatMap (·.cycles b)) told
        (.ok (tries - left + reads.length))
  | stillWriting (hlength : reads.length = left) (hmisses : Misses StatusRead.isOver reads) :
      WriteEnds b readyTries tries left reads (reads.flatMap (·.cycles b)) reads.length
        (.failed (.writeTimeout tries))
  | notReady {rest : List Access} (hlength : reads.length < left)
      (hmisses : Misses StatusRead.isOver reads) (hrest : b.GivesUp readyTries rest) :
      WriteEnds b readyTries tries left reads (reads.flatMap (·.cycles b) ++ rest) reads.length
        (.failed (.readyTimeout readyTries))

/-- A status that shows a write in progress costs one turn, and is told. -/
theorem WriteEnds.cons {readyTries tries left told : Nat} (hleft : left < tries) {r : StatusRead}
    (hr : r.isOver = false) {reads : List StatusRead} {cycles : List Access}
    {out : Outcome RomError Nat} (h : b.WriteEnds readyTries tries left reads cycles told out) :
    b.WriteEnds readyTries tries (left + 1) (r :: reads) (r.cycles b ++ cycles) (told + 1) out := by
  cases h with
  | ended hlength hhits htold =>
      have hcount : tries - left + reads.length =
          tries - (left + 1) + (r :: reads).length := by
        rw [List.length_cons]
        omega
      rw [hcount]
      exact .ended (Nat.succ_le_succ hlength) (hhits.cons hr) (congrArg Nat.succ htold)
  | stillWriting hlength hmisses =>
      exact .stillWriting (congrArg Nat.succ hlength) (hmisses.cons hr)
  | notReady hlength hmisses hrest =>
      rw [← List.append_assoc]
      exact .notReady (Nat.succ_lt_succ hlength) (hmisses.cons hr) hrest

theorem tells_awaitWrite (hb : b.Fits) {tries left : Nat} (hleft : left ≤ tries)
    (readyTries interval : Nat) (s : σ) (w : ω) :
    ∃ (reads : List StatusRead) (cycles : List Access) (told : Nat) (out : Outcome RomError Nat)
      (w' : ω), (∀ r ∈ reads, r.InTime readyTries) ∧
        b.WriteEnds readyTries tries left reads cycles told out ∧
        (b.awaitWrite readyTries interval Exchange.tick tries left : Job σ RomError Nat).Tells s w
          cycles told out s w' := by
  induction left generalizing w with
  | zero => exact ⟨[], _, _, _, w, nofun, .stillWriting rfl nofun, Routine.tells_fail _⟩
  | succ left ih =>
      rw [awaitWrite]
      obtain ⟨r, w₁, hr, hmakes⟩ | ⟨rest, w₁, hrest, hmakes⟩ := makes_readStatus hb readyTries s w
      · have hread := hmakes.tells trivial (never_ticks_readStatus hb readyTries)
        cases hover : r.isOver with
        | true =>
            have hbits : ¬hasBits r.status RomStatus.writing = true := by
              simpa [StatusRead.isOver] using hover
            have hcount : tries - left = tries - (left + 1) + [r].length := by
              rw [List.length_singleton]
              omega
            refine ⟨[r], _, 0, _, w₁, List.forall_mem_singleton.mpr hr,
              .ended (Nat.le_add_left 1 left) (.single hover) rfl, ?_⟩
            rw [List.flatMap_singleton, ← hcount]
            refine hread.bind_silent ?_
            rw [if_neg hbits]
            exact (Routine.tells_remark _).silent_bind (Routine.tells_pure _)
        | false =>
            have hbits : hasBits r.status RomStatus.writing = true := by
              simpa [StatusRead.isOver] using hover
            obtain ⟨reads, cycles, told, out, w', hreads, hends, hloop⟩ := ih (by omega) w₁
            refine ⟨r :: reads, _, _, out, w', List.forall_mem_cons.mpr ⟨hr, hreads⟩,
              hends.cons (by omega) hover, ?_⟩
            -- The status read tells no turn itself; the turn is told behind it.
            have htold : told + 1 = 0 + (1 + told) := by omega
            rw [htold]
            refine hread.bind ?_
            rw [if_pos hbits]
            exact Routine.tells_tick.bind ((Routine.tells_pause interval).silent_bind hloop)
      · have hread := hmakes.tells trivial (never_ticks_readStatus hb readyTries)
        exact ⟨[], _, _, _, w₁, nofun, .notReady (Nat.zero_lt_succ left) nofun hrest,
          hread.bind_failed⟩

/-! ## The number of bus cycles -/

theorem length_frameCycles_readStatus (b : Board) :
    (b.frameCycles { opcode := .readStatus }).length = 3 := rfl

theorem StatusRead.InTime.length_cycles_le {readyTries : Nat} {r : StatusRead}
    (h : r.InTime readyTries) (b : Board) : (r.cycles b).length ≤ 2 * readyTries + 4 := by
  have hbefore := h.length_before
  have hbehind := h.length_behind
  simp only [cycles, statusPolls, List.length_append, List.length_map, List.length_singleton,
    length_frameCycles_readStatus]
  omega

theorem GivesUp.length_le {readyTries : Nat} {rest : List Access} (h : b.GivesUp readyTries rest) :
    rest.length ≤ 2 * readyTries + 4 := by
  cases h with
  | before hlength _ =>
      rw [statusPolls, List.length_map]
      omega
  | behind _ hbefore hlength _ =>
      simp only [statusPolls, List.length_append, List.length_map, length_frameCycles_readStatus]
      omega

theorem WriteEnds.length_le {readyTries tries left told : Nat} {reads : List StatusRead}
    {cycles : List Access} {out : Outcome RomError Nat} (hreads : ∀ r ∈ reads, r.InTime readyTries)
    (h : b.WriteEnds readyTries tries left reads cycles told out) :
    cycles.length ≤ left * (2 * readyTries + 4) := by
  have hsum : (reads.flatMap (·.cycles b)).length ≤ reads.length * (2 * readyTries + 4) := by
    rw [List.length_flatMap]
    have hle := List.sum_le_card_nsmul (reads.map fun r => (r.cycles b).length)
      (2 * readyTries + 4) (by
        intro n hn
        obtain ⟨r, hr, rfl⟩ := List.mem_map.mp hn
        exact (hreads r hr).length_cycles_le b)
    simpa using hle
  -- A status read that is given up takes a turn that no other has taken.
  cases h with
  | ended hlength _ _ => exact hsum.trans (Nat.mul_le_mul_right _ hlength)
  | stillWriting hlength _ => exact hsum.trans (Nat.mul_le_mul_right _ hlength.le)
  | notReady hlength _ hrest =>
      have hmore := Nat.mul_le_mul_right (2 * readyTries + 4) (Nat.succ_le_of_lt hlength)
      rw [Nat.succ_mul] at hmore
      rw [List.length_append]
      exact (Nat.add_le_add hsum hrest.length_le).trans hmore

/-- What a wait for the end of a write comes to, told by its status reads, and by the bus cycles
behind them of one more that is given up: it ends at the first status that shows the write over,
after all its turns, or as soon as the engine is not ready in time. -/
structure WriteWait (b : Board) (readyTries tries : Nat) (reads : List StatusRead)
    (rest cycles : List Access) (ticks : Nat) (out : Outcome RomError Nat) : Prop where
  cycles_eq : cycles = reads.flatMap (·.cycles b) ++ rest
  inTime : ∀ r ∈ reads, r.InTime readyTries
  ok_iff (k : Nat) : out = .ok k ↔ reads.length = k ∧ k ≤ tries ∧ Hits StatusRead.isOver reads
  writeTimeout_iff : out = .failed (.writeTimeout tries) ↔
    reads.length = tries ∧ Misses StatusRead.isOver reads
  readyTimeout_iff : out = .failed (.readyTimeout readyTries) ↔
    reads.length < tries ∧ Misses StatusRead.isOver reads ∧ b.GivesUp readyTries rest
  ends : (∃ k, out = .ok k) ∨ out = .failed (.writeTimeout tries) ∨
    out = .failed (.readyTimeout readyTries)
  rest_eq : out ≠ .failed (.readyTimeout readyTries) → rest = []
  ticks_ok (k : Nat) : out = .ok k → ticks = k - 1
  ticks_failed (e : RomError) : out = .failed e → ticks = reads.length
  length_cycles_le : cycles.length ≤ tries * (2 * readyTries + 4)

theorem WriteEnds.writeWait {readyTries tries told : Nat} {reads : List StatusRead}
    {cycles : List Access} {out : Outcome RomError Nat} (hreads : ∀ r ∈ reads, r.InTime readyTries)
    (h : b.WriteEnds readyTries tries tries reads cycles told out) :
    ∃ rest, b.WriteWait readyTries tries reads rest cycles told out := by
  have hlength_le := h.length_le hreads
  cases h with
  | ended hlength hhits htold =>
      have hmisses := hhits.not_misses
      rw [Nat.sub_self, Nat.zero_add]
      refine ⟨[], ⟨(List.append_nil _).symm, hreads, hhits.ok_iff hlength, ?_, ?_, .inl ⟨_, rfl⟩,
        fun _ => rfl, ?_, nofun, hlength_le⟩⟩
      · exact iff_of_false nofun fun h => hmisses h.2
      · exact iff_of_false nofun fun h => hmisses h.2.1
      · rintro k hk
        obtain rfl : reads.length = k := by simpa using hk
        omega
  | stillWriting hlength hmisses =>
      refine ⟨[], ⟨(List.append_nil _).symm, hreads, fun k => ?_, ?_, ?_, .inr (.inl rfl),
        fun _ => rfl, nofun, fun _ _ => rfl, hlength_le⟩⟩
      · exact iff_of_false nofun fun h => h.2.2.not_misses hmisses
      · exact iff_of_true rfl ⟨hlength, hmisses⟩
      · exact iff_of_false nofun fun h => h.1.ne hlength
  | notReady hlength hmisses hrest =>
      refine ⟨_, ⟨rfl, hreads, fun k => ?_, ?_, ?_, .inr (.inr rfl), fun h => absurd rfl h, nofun,
        fun _ _ => rfl, hlength_le⟩⟩
      · exact iff_of_false nofun fun h => h.2.2.not_misses hmisses
      · exact iff_of_false nofun fun h => hlength.ne h.1
      · exact iff_of_true rfl ⟨hlength, hmisses, hrest⟩

theorem exists_writeWait (hb : b.Fits) (tries readyTries interval : Nat) (s : σ) (w : ω) :
    let wait : Exchange (Outcome RomError Nat × σ) :=
      b.waitWrite tries readyTries interval Exchange.tick s
    (wait.run Bus.handler w).1.2 = s ∧
      ∃ reads rest, b.WriteWait readyTries tries reads rest (wait.cycles w) (wait.ticks w)
        (wait.run Bus.handler w).1.1 := by
  intro wait
  obtain ⟨reads, cycles, told, out, w', hreads, hends, htells⟩ :=
    tells_awaitWrite hb tries.le_refl readyTries interval s w
  obtain ⟨rest, hwait⟩ := hends.writeWait hreads
  have hcycles : wait.cycles w = cycles := htells.cycles_eq
  have hticks : wait.ticks w = told := htells.ticks_eq
  have hrun : wait.run Bus.handler w = ((out, s), w') := htells.run_eq
  rw [hcycles, hticks, hrun]
  exact ⟨rfl, reads, rest, hwait⟩

end Board
end Reflash
