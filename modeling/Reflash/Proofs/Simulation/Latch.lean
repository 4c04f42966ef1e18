import Mathlib.Data.List.Induction
import Reflash.Proofs.Simulation.Executions
/-!
# The write-enable latch

What the ROM of a simulated board hangs on: its write-enable latch, the write in progress and the
page buffer. A bulk erase looks at the latch when it runs. A page is programmed by the command that
closes its buffer, and the latch is looked at when the buffer is opened, not when it is closed. So
what is programmed was allowed when its buffer was opened, and is allowed when it is closed unless
the latch has been cleared in between, by a write-disable or a bulk erase. A reset or a reboot takes
the buffer away with the latch; these two leave it open.
-/

namespace Reflash

inductive RegisterAccess where
  | read (offset : UInt32)
  | write (offset value : UInt32)
  | probe

/-- What the contents of a board's ROM hang on. -/
structure RomGuard where
  rom : RomContents
  writeEnabled : Bool
  busy : Nat
  page : Option (Array (Nat × UInt32))
  writeProtected : Bool

namespace RomGuard

def Allows (g : RomGuard) : Prop := g.writeEnabled = true ∧ g.busy = 0

/-- A word that is sent now goes to a page buffer. -/
def TakesWords (g : RomGuard) : Prop := g.page ≠ none ∨ g.Allows

/-- A command of that opcode is ignored, or is none that the ROM or the latch minds. -/
def Ignores (g : RomGuard) : Option Rom.Opcode → Prop
  | some .writeEnable | some .writeDisable => False
  | some .bulkErase => ¬g.Allows
  | some .pageProgram => ¬g.TakesWords
  | some .readStatus | some .autoRead | some .readId | none => True

def pageWith (g : RomGuard) (e : Execution) : Array (Nat × UInt32) :=
  (g.page.getD #[]).push (e.address.toNat / Rom.wordBytes, e.data)

/-- What an access does to the ROM and its guard, given the command that it runs. -/
inductive Effect (g : RomGuard) : Option Execution → RomGuard → Prop
  | rests {e? : Option Execution} {left : Nat} (hleft : left ≤ g.busy)
      (hignored : ∀ e ∈ e?, g.Ignores e.opcode?) : Effect g e? { g with busy := left }
  | dropped : Effect g none { g with writeEnabled := false, page := none }
  | enabled {e : Execution} (hopcode : e.opcode? = some .writeEnable) :
      Effect g (some e) { g with writeEnabled := !g.writeProtected }
  | disabled {e : Execution} (hopcode : e.opcode? = some .writeDisable) :
      Effect g (some e) { g with writeEnabled := false }
  | erased {e : Execution} {busy : Nat} {writeProtected : Bool}
      (hopcode : e.opcode? = some .bulkErase) (hallowed : g.Allows) :
      Effect g (some e) { g with rom := .blank, writeEnabled := false, busy, writeProtected }
  | taken {e : Execution} (hopcode : e.opcode? = some .pageProgram)
      (hclosing : e.endOfCommand = false) (htaken : g.TakesWords) :
      Effect g (some e) { g with page := some (g.pageWith e) }
  | committed {e : Execution} {busy : Nat} (hopcode : e.opcode? = some .pageProgram)
      (hclosing : e.endOfCommand = true) (htaken : g.TakesWords) :
      Effect g (some e)
        { g with rom := g.rom.commit (g.pageWith e), writeEnabled := false, busy, page := none }

def ClearsLatch (e : Execution) : Prop :=
  e.opcode? = some .writeDisable ∨ e.opcode? = some .bulkErase

namespace Effect

variable {g g' : RomGuard} {e? : Option Execution}

/-- The contents change by an erase that the latch allows, or by the command that closes a buffer
which is open or may be opened. -/
theorem of_rom_ne (h : Effect g e? g') (hne : g'.rom ≠ g.rom) :
    ∃ e, e? = some e ∧ (e.opcode? = some .bulkErase ∧ g.Allows ∨
      e.opcode? = some .pageProgram ∧ e.endOfCommand = true ∧ g.TakesWords) := by
  cases h with
  | rests | dropped | enabled | disabled | taken => exact absurd rfl hne
  | erased hopcode hallowed => exact ⟨_, rfl, .inl ⟨hopcode, hallowed⟩⟩
  | committed hopcode hclosing htaken => exact ⟨_, rfl, .inr ⟨hopcode, hclosing, htaken⟩⟩

theorem opcode_eq {e : Execution} {opcode opcode' : Rom.Opcode} (h : e.opcode? = some opcode)
    (h' : e.opcode? = some opcode') : opcode = opcode' := Option.some.inj (h.symm.trans h')

/-- A word that closes a buffer programs it, whatever the latch is by then. -/
theorem rom_of_closing {e : Execution} (h : Effect g (some e) g')
    (hopcode : e.opcode? = some .pageProgram) (hclosing : e.endOfCommand = true)
    (htaken : g.TakesWords) : g'.rom = g.rom.commit (g.pageWith e) := by
  cases h with
  | rests _ hignored =>
      have hlost := hignored e rfl
      rw [hopcode] at hlost
      exact absurd htaken hlost
  | committed => rfl
  | taken _ hopen => exact absurd hclosing (Bool.eq_false_iff.mp hopen)
  | enabled h | disabled h | erased h => cases opcode_eq h hopcode

theorem of_writeDisable {e : Execution} (h : Effect g (some e) g')
    (hopcode : e.opcode? = some .writeDisable) : g' = { g with writeEnabled := false } := by
  cases h with
  | rests _ hignored =>
      have hlost := hignored e rfl
      rw [hopcode] at hlost
      exact hlost.elim
  | disabled => rfl
  | enabled h | erased h | taken h | committed h => cases opcode_eq h hopcode

theorem not_protected (h : Effect g e? g')
    (hg : g.writeEnabled = true → g.writeProtected = false) :
    g'.writeEnabled = true → g'.writeProtected = false := by
  cases h with
  | rests | taken => exact hg
  | enabled => exact fun hset => (Bool.not_eq_true' _).mp hset
  | dropped | disabled | erased | committed => exact nofun

theorem opened (h : Effect g e? g') (hshut : g.page = none) (hopen : g'.page ≠ none) :
    g.Allows ∧ g'.Allows := by
  cases h with
  | rests | enabled | disabled | erased => exact absurd hshut hopen
  | taken _ _ htaken =>
      have hallowed := htaken.resolve_left (absurd hshut)
      exact ⟨hallowed, hallowed⟩
  | dropped | committed => exact absurd rfl hopen

/-- What is allowed stays allowed while a buffer is open, unless the latch is cleared. -/
theorem allows (h : Effect g e? g') (hg : g.writeEnabled = true → g.writeProtected = false)
    (hallowed : g.Allows) (hopen : g'.page ≠ none) (hkept : ∀ e ∈ e?, ¬ClearsLatch e) :
    g'.Allows := by
  obtain ⟨hlatch, hidle⟩ := hallowed
  cases h with
  | rests hleft => exact ⟨hlatch, Nat.eq_zero_of_le_zero (hidle ▸ hleft)⟩
  | taken => exact ⟨hlatch, hidle⟩
  | enabled => exact ⟨congrArg not (hg hlatch), hidle⟩
  | disabled hopcode => exact absurd (.inl hopcode) (hkept _ rfl)
  | erased hopcode => exact absurd (.inr hopcode) (hkept _ rfl)
  | dropped | committed => exact absurd rfl hopen

/-- A cleared latch stays clear until it is set. Until then the contents change only if a buffer is
open and is closed, and no buffer is opened. -/
theorem stays_disabled (h : Effect g e? g') (hclear : g.writeEnabled = false)
    (hkept : ∀ e ∈ e?, e.opcode? ≠ some .writeEnable)
    (hshut : g.page = none ∨
      ∀ e ∈ e?, ¬(e.opcode? = some .pageProgram ∧ e.endOfCommand = true)) :
    g'.writeEnabled = false ∧ g'.rom = g.rom ∧ (g.page = none → g'.page = none) := by
  have hnot : ¬g.Allows := fun hallowed => Bool.false_ne_true (hclear ▸ hallowed.1)
  cases h with
  | rests => exact ⟨hclear, rfl, id⟩
  | dropped => exact ⟨rfl, rfl, fun _ => rfl⟩
  | enabled hopcode => exact absurd hopcode (hkept _ rfl)
  | disabled => exact ⟨rfl, rfl, id⟩
  | erased _ hallowed => exact absurd hallowed hnot
  | taken _ _ htaken =>
      exact ⟨hclear, rfl, fun hnone => absurd hnone (htaken.resolve_right hnot)⟩
  | committed hopcode hclosing htaken =>
      obtain hnone | hopen := hshut
      · exact absurd hnone (htaken.resolve_right hnot)
      · exact absurd ⟨hopcode, hclosing⟩ (hopen _ rfl)

end Effect
end RomGuard

namespace SimulatedBoard

open RomGuard (ClearsLatch Effect)

def guard (b : SimulatedBoard) : RomGuard :=
  ⟨b.rom, b.writeEnabled, b.busy, b.page, b.faults.writeProtected⟩

def accessed (b : SimulatedBoard) : RegisterAccess → SimulatedBoard
  | .read offset => (b.read offset).2
  | .write offset value => b.write offset value
  | .probe => b.probe.2

def accessedBy (b : SimulatedBoard) (history : List RegisterAccess) : SimulatedBoard :=
  history.foldl accessed b

def executionBy (b : SimulatedBoard) : RegisterAccess → Option Execution
  | .write offset value => b.execution? offset value
  | .read _ | .probe => none

def executionsBy (b : SimulatedBoard) : List RegisterAccess → List Execution
  | [] => []
  | a :: rest => (b.executionBy a).toList ++ (b.accessed a).executionsBy rest

variable {b : SimulatedBoard} {g : RomGuard}

/-! ## What an access does to the guard -/

theorem guard_read (b : SimulatedBoard) (offset : UInt32) : (b.read offset).2.guard = b.guard := by
  have hready (c : SimulatedBoard) : c.isReady.2.guard = c.guard := by
    unfold isReady
    split <;> rfl
  unfold read
  split_ifs
  all_goals first | rfl | exact hready _

theorem pageProgram_of_takesWords (h : b.guard.TakesWords) (closing : Bool) :
    b.pageProgram closing =
      let page := (b.page.getD #[]).push (b.wordIndex, b.data)
      if closing then b.commitPage page else { b with page := some page } := by
  unfold pageProgram
  cases hpage : b.page with
  | some page => rfl
  | none =>
      obtain ⟨hlatch, hidle⟩ : b.guard.Allows := h.resolve_left (absurd hpage)
      have hallowed : (b.writeEnabled && b.busy == 0) = true :=
        Bool.and_eq_true_iff.mpr ⟨hlatch, beq_iff_eq.mpr hidle⟩
      dsimp only
      rw [if_pos hallowed]
      rfl

theorem pageProgram_of_not_takesWords (h : ¬b.guard.TakesWords) (closing : Bool) :
    b.pageProgram closing =
      { b with activity.droppedWords := b.activity.droppedWords + 1 } := by
  unfold pageProgram
  cases hpage : b.page with
  | some page =>
      have hopen : b.page ≠ none := hpage ▸ Option.some_ne_none page
      exact absurd (.inl hopen) h
  | none =>
      have hrefused : ¬(b.writeEnabled && b.busy == 0) = true := fun hallowed =>
        h (.inr ((Bool.and_eq_true_iff.mp hallowed).imp_right beq_iff_eq.mp))
      dsimp only
      rw [if_neg hrefused]

theorem rests_of_ignores {e : Execution} {opcode? : Option Rom.Opcode} {left : Nat}
    (hopcode : e.opcode? = opcode?) (h : g.Ignores opcode?) (hleft : left ≤ g.busy) :
    Effect g (some e) { g with busy := left } :=
  .rests hleft fun _ he => Option.some.inj he ▸ hopcode ▸ h

theorem rests_of_none : Effect g none g :=
  .rests (Nat.le_refl _) fun e he => absurd he (Option.not_mem_none e)

theorem effect_execute (hg : b.guard = g) {opcode : Rom.Opcode} {e : Execution}
    (hopcode : e.opcode? = some opcode) (haddress : e.address = b.address)
    (hdata : e.data = b.data) :
    Effect g (some e) (b.execute e.endOfCommand opcode).guard := by
  subst hg
  cases opcode with
  | writeDisable => exact .disabled hopcode
  | writeEnable => exact .enabled hopcode
  | autoRead | readId => exact rests_of_ignores hopcode trivial (Nat.le_refl _)
  | readStatus =>
      rw [execute, reportStatus]
      split
      · exact rests_of_ignores hopcode trivial (Nat.le_refl _)
      · exact rests_of_ignores hopcode trivial (Nat.sub_le b.busy 1)
  | bulkErase =>
      have hallows : (b.writeEnabled && b.busy == 0) = true ↔ b.guard.Allows := by
        rw [Bool.and_eq_true, beq_iff_eq]
        rfl
      rw [execute, bulkErase]
      split
      next hallowed => exact .erased hopcode (hallows.mp hallowed)
      next hrefused =>
        exact rests_of_ignores hopcode (mt hallows.mpr hrefused) (Nat.le_refl _)
  | pageProgram =>
      have hword : b.guard.pageWith e = (b.page.getD #[]).push (b.wordIndex, b.data) := by
        rw [RomGuard.pageWith, haddress, hdata]
        rfl
      rw [execute]
      by_cases htaken : b.guard.TakesWords
      · rw [pageProgram_of_takesWords htaken, ← hword]
        cases hclosing : e.endOfCommand with
        | true => exact .committed hopcode hclosing htaken
        | false => exact .taken hopcode hclosing htaken
      · rw [pageProgram_of_not_takesWords htaken]
        exact rests_of_ignores hopcode htaken (Nat.le_refl _)

theorem effect_runCommand (hg : b.guard = g) (field : UInt8) {e : Execution}
    (hopcode : e.opcode? = Rom.Opcode.ofByte? field) (haddress : e.address = b.address)
    (hdata : e.data = b.data) :
    Effect g (some e) (b.runCommand field e.endOfCommand).guard := by
  subst hg
  rw [runCommand]
  cases hfield : Rom.Opcode.ofByte? field with
  | none => exact rests_of_ignores (hopcode.trans hfield) trivial (Nat.le_refl _)
  | some opcode =>
      refine effect_execute ?_ (hopcode.trans hfield) haddress hdata
      rfl

theorem effect_writeControl (b : SimulatedBoard) (word : UInt32) :
    Effect b.guard (b.execution? Register.command word) (b.writeControl word).guard := by
  rw [execution?, if_pos rfl, writeControl]
  cases hreboot : hasBits word Control.reboot with
  | true =>
      have hnone : b.started? word = none := by simp [started?, hreboot]
      rw [hnone]
      exact .dropped
  | false =>
      rw [if_neg Bool.false_ne_true]
      cases b.started? word with
      | none => exact rests_of_none
      | some field =>
          rw [Option.map_some]
          refine effect_runCommand ?_ field ?_ ?_ ?_ <;> rfl

/-- Whatever is accessed, the guard changes by the command that this runs, or by a reset. -/
theorem effect_accessed (b : SimulatedBoard) (a : RegisterAccess) :
    Effect b.guard (b.executionBy a) (b.accessed a).guard := by
  cases a with
  | read offset =>
      have hread : (b.accessed (.read offset)).guard = b.guard := b.guard_read offset
      rw [hread]
      exact rests_of_none
  | probe => exact rests_of_none
  | write offset value =>
      rw [accessed, executionBy, write]
      by_cases hcommand : offset = Register.command
      · rw [hcommand, if_neg (by decide), if_pos rfl]
        exact effect_writeControl { b with activity.writes := b.activity.writes + 1 } value
      · rw [execution?, if_neg hcommand, if_neg hcommand]
        split_ifs
        · exact .dropped
        all_goals exact rests_of_none

theorem rom_accessed_of_closing {a : RegisterAccess} {e : Execution}
    {page : Array (Nat × UInt32)} (hruns : b.executionBy a = some e)
    (hopcode : e.opcode? = some .pageProgram) (hclosing : e.endOfCommand = true)
    (hpage : b.page = some page) :
    (b.accessed a).rom = b.rom.commit (page.push (e.address.toNat / Rom.wordBytes, e.data)) := by
  have heffect := effect_accessed b a
  rw [hruns] at heffect
  have hopen : b.page ≠ none := hpage ▸ Option.some_ne_none page
  have hrom := heffect.rom_of_closing hopcode hclosing (.inl hopen)
  have hguard : b.guard.page = some page := hpage
  rwa [RomGuard.pageWith, hguard] at hrom

/-! ## Histories -/

variable {past : List RegisterAccess}

theorem accessedBy_append (b : SimulatedBoard) (past more : List RegisterAccess) :
    b.accessedBy (past ++ more) = (b.accessedBy past).accessedBy more := List.foldl_append

theorem accessedBy_append_singleton (b : SimulatedBoard) (past : List RegisterAccess)
    (a : RegisterAccess) : b.accessedBy (past ++ [a]) = (b.accessedBy past).accessed a :=
  b.accessedBy_append past [a]

theorem executionsBy_append (b : SimulatedBoard) (past more : List RegisterAccess) :
    b.executionsBy (past ++ more) =
      b.executionsBy past ++ (b.accessedBy past).executionsBy more := by
  induction past generalizing b with
  | nil => rfl
  | cons a rest ih =>
      rw [List.cons_append, executionsBy, ih, ← List.append_assoc]
      rfl

theorem executionsBy_singleton (b : SimulatedBoard) (a : RegisterAccess) :
    b.executionsBy [a] = (b.executionBy a).toList := List.append_nil _

/-- A latch that could not be set at the start has not been set since. -/
theorem not_protected_accessedBy (h : b.writeEnabled = false) (past : List RegisterAccess) :
    (b.accessedBy past).writeEnabled = true →
      (b.accessedBy past).faults.writeProtected = false := by
  induction past using List.reverseRecOn with
  | nil => exact fun hset => absurd hset (h ▸ Bool.false_ne_true)
  | append_singleton past a ih =>
      rw [accessedBy_append_singleton]
      exact (effect_accessed (b.accessedBy past) a).not_protected ih

/-- The page buffer was opened by an access that the latch allowed, and is open since. -/
structure OpenSince (b : SimulatedBoard) (before : List RegisterAccess) (opening : RegisterAccess)
    (since : List RegisterAccess) : Prop where
  shut : (b.accessedBy before).page = none
  allowed : (b.accessedBy before).writeEnabled = true ∧ (b.accessedBy before).busy = 0
  stays : ∀ first, first <+: since → (b.accessedBy (before ++ opening :: first)).page ≠ none

/-- The latch has been cleared since the page buffer was opened, and the buffer is open still. -/
def HasStalePage (b : SimulatedBoard) (past : List RegisterAccess) : Prop :=
  ∃ before opening since, past = before ++ opening :: since ∧ b.OpenSince before opening since ∧
    ∃ e ∈ (b.accessedBy (before ++ [opening])).executionsBy since, ClearsLatch e

/-- An open buffer was opened when that was allowed. It still is unless the latch was cleared. -/
theorem exists_openSince (hclear : b.writeEnabled = false) (hshut : b.page = none)
    (hopen : (b.accessedBy past).page ≠ none) :
    ∃ before opening since, past = before ++ opening :: since ∧ b.OpenSince before opening since ∧
      ((∀ e ∈ (b.accessedBy (before ++ [opening])).executionsBy since, ¬ClearsLatch e) →
        (b.accessedBy past).guard.Allows) := by
  induction past using List.reverseRecOn with
  | nil => exact absurd hshut hopen
  | append_singleton past a ih =>
      have heffect := effect_accessed (b.accessedBy past) a
      rw [accessedBy_append_singleton] at hopen ⊢
      by_cases hbefore : (b.accessedBy past).page = none
      · obtain ⟨hallowed, hallowed'⟩ := heffect.opened hbefore hopen
        refine ⟨past, a, [], rfl, ⟨hbefore, hallowed, ?_⟩, fun _ => hallowed'⟩
        intro first hfirst
        rw [List.prefix_nil.mp hfirst, accessedBy_append_singleton]
        exact hopen
      · obtain ⟨before, opening, since, rfl, hsince, hkept⟩ := ih hbefore
        have hnow : (b.accessedBy (before ++ [opening])).accessedBy since =
            b.accessedBy (before ++ opening :: since) := by
          rw [← accessedBy_append, List.append_assoc, List.singleton_append]
        refine ⟨before, opening, since ++ [a], by simp, ⟨hsince.shut, hsince.allowed, ?_⟩, ?_⟩
        · intro first hfirst
          obtain rfl | hfirst := List.prefix_concat_iff.mp hfirst
          · rw [← List.cons_append, ← List.append_assoc, accessedBy_append_singleton]
            exact hopen
          · exact hsince.stays first hfirst
        · rw [executionsBy_append, executionsBy_singleton, hnow]
          intro hnone
          obtain ⟨hpast, hlast⟩ := List.forall_mem_append.mp hnone
          have hprotected := not_protected_accessedBy hclear (before ++ opening :: since)
          exact heffect.allows hprotected (hkept hpast) hopen fun e he =>
            hlast e (Option.mem_toList.mpr he)

/-- A word that is sent is allowed, or goes to a buffer that the latch was cleared behind. -/
theorem allows_or_stale (hclear : b.writeEnabled = false) (hshut : b.page = none)
    (htaken : (b.accessedBy past).guard.TakesWords) :
    (b.accessedBy past).guard.Allows ∨ b.HasStalePage past := by
  obtain hopen | hallowed := htaken
  · obtain ⟨before, opening, since, hpast, hsince, hkept⟩ := exists_openSince hclear hshut hopen
    by_cases hnone : ∀ e ∈ (b.accessedBy (before ++ [opening])).executionsBy since, ¬ClearsLatch e
    · exact .inl (hkept hnone)
    · simp only [not_forall, not_not] at hnone
      obtain ⟨e, he, hclears⟩ := hnone
      exact .inr ⟨before, opening, since, hpast, hsince, e, he, hclears⟩
  · exact .inl hallowed

/-! ## Behind a write-disable -/

/-- Once the latch is clear, the ROM keeps its contents until the latch is set again, or until an
open buffer is closed. -/
theorem rom_accessedBy_of_disabled (hclear : b.writeEnabled = false) (more : List RegisterAccess)
    (hkept : ∀ e ∈ b.executionsBy more, e.opcode? ≠ some .writeEnable)
    (hshut : b.page = none ∨ ∀ e ∈ b.executionsBy more,
      ¬(e.opcode? = some .pageProgram ∧ e.endOfCommand = true)) :
    (b.accessedBy more).rom = b.rom := by
  induction more generalizing b with
  | nil => rfl
  | cons a rest ih =>
      rw [executionsBy] at hkept hshut
      obtain ⟨hfirst, hrest⟩ := List.forall_mem_append.mp hkept
      have hshut' : b.page = none ∨ ∀ e ∈ b.executionBy a,
          ¬(e.opcode? = some .pageProgram ∧ e.endOfCommand = true) :=
        hshut.imp_right fun h e he =>
          (List.forall_mem_append.mp h).1 e (Option.mem_toList.mpr he)
      obtain ⟨hclear', hrom, hpage⟩ := (effect_accessed b a).stays_disabled hclear
        (fun e he => hfirst e (Option.mem_toList.mpr he)) hshut'
      have hlater := ih (b := b.accessed a) hclear' hrest
        (hshut.imp hpage fun h => (List.forall_mem_append.mp h).2)
      exact hlater.trans hrom

theorem rom_accessedBy_of_writeDisable {a : RegisterAccess} {e : Execution}
    (hruns : b.executionBy a = some e) (hopcode : e.opcode? = some .writeDisable)
    (more : List RegisterAccess)
    (hkept : ∀ e ∈ (b.accessed a).executionsBy more, e.opcode? ≠ some .writeEnable)
    (hshut : b.page = none ∨ ∀ e ∈ (b.accessed a).executionsBy more,
      ¬(e.opcode? = some .pageProgram ∧ e.endOfCommand = true)) :
    ((b.accessed a).accessedBy more).rom = b.rom := by
  have heffect := effect_accessed b a
  rw [hruns] at heffect
  have hguard := heffect.of_writeDisable hopcode
  have hclear : (b.accessed a).writeEnabled = false := congrArg RomGuard.writeEnabled hguard
  have hpage : (b.accessed a).page = b.page := congrArg RomGuard.page hguard
  have hrom : (b.accessed a).rom = b.rom := congrArg RomGuard.rom hguard
  rw [← hpage] at hshut
  exact (rom_accessedBy_of_disabled hclear more hkept hshut).trans hrom

/-! ## What the latch is good for -/

/-- Whatever has been read, written and probed since a board was fresh, its ROM changes only by a
bulk erase while the latch is set and no write is in progress, or when a page buffer is closed. Then
the latch is set and no write is in progress, too, unless a write-disable or a bulk erase was run
since the buffer was opened: a buffer that is open is programmed when it is closed, whatever the
latch is by then. So behind a write-disable nothing changes until the latch is set again, if no
buffer was open, and otherwise until that buffer is closed. -/
theorem rom_changes_when_allowed_or_stale (rom : RomContents) (version : Version)
    (rebootVersion : Option Version) (faults : Faults) (latency : Latency)
    (past : List RegisterAccess) (a : RegisterAccess) :
    let fresh : SimulatedBoard := { rom, version, rebootVersion, faults, latency }
    let b := fresh.accessedBy past
    (∀ i, (b.accessed a).rom.wordAt i ≠ b.rom.wordAt i →
      ∃ e, b.executionBy a = some e ∧
        (e.opcode? = some .bulkErase ∧ b.writeEnabled = true ∧ b.busy = 0 ∨
          e.opcode? = some .pageProgram ∧ e.endOfCommand = true ∧
            (b.writeEnabled = true ∧ b.busy = 0 ∨ fresh.HasStalePage past))) ∧
    (∀ e page, b.executionBy a = some e → e.opcode? = some .pageProgram →
      e.endOfCommand = true → b.page = some page →
        (b.accessed a).rom =
          b.rom.commit (page.push (e.address.toNat / Rom.wordBytes, e.data))) ∧
    ∀ before disabling rest e, past = before ++ disabling :: rest →
      (fresh.accessedBy before).executionBy disabling = some e →
      e.opcode? = some .writeDisable →
      (∀ e' ∈ (fresh.accessedBy (before ++ [disabling])).executionsBy rest,
        e'.opcode? ≠ some .writeEnable) →
      ((fresh.accessedBy before).page = none ∨
        ∀ e' ∈ (fresh.accessedBy (before ++ [disabling])).executionsBy rest,
          ¬(e'.opcode? = some .pageProgram ∧ e'.endOfCommand = true)) →
        b.rom = (fresh.accessedBy before).rom := by
  intro fresh b
  refine ⟨fun i hchange => ?_, fun e page => rom_accessed_of_closing, ?_⟩
  · have hne : (b.accessed a).guard.rom ≠ b.guard.rom := fun heq =>
      hchange (congrArg (·.wordAt i) heq)
    obtain ⟨e, hruns, ⟨hopcode, hallowed⟩ | ⟨hopcode, hclosing, htaken⟩⟩ :=
      (effect_accessed b a).of_rom_ne hne
    · exact ⟨e, hruns, .inl ⟨hopcode, hallowed⟩⟩
    · exact ⟨e, hruns, .inr ⟨hopcode, hclosing, allows_or_stale (b := fresh) rfl rfl htaken⟩⟩
  · rintro before disabling rest e rfl hruns hopcode hkept hshut
    rw [accessedBy_append_singleton] at hkept hshut
    have hsplit : fresh.accessedBy (before ++ disabling :: rest) =
        ((fresh.accessedBy before).accessed disabling).accessedBy rest :=
      fresh.accessedBy_append before (disabling :: rest)
    rw [show b = _ from hsplit]
    exact rom_accessedBy_of_writeDisable hruns hopcode rest hkept hshut

def issuing (cmds : List Rom.Command) : List RegisterAccess :=
  cmds.flatMap fun cmd => cmd.frame.map fun w => .write w.1 w.2

def zeroing (address : UInt32) (closing : Bool) : Rom.Command :=
  { opcode := .pageProgram, address := some address, data := some 0, endOfCommand := closing }

/-- The latch is set, a word is sent, and the latch is cleared. A second word then closes the
buffer as soon as its command is executed. -/
def disabling : List RegisterAccess :=
  issuing [{ opcode := .writeEnable }, zeroing 0 false, { opcode := .writeDisable }] ++
    (issuing [zeroing 4 true]).take 3

/-- The latch is clear and has not been set again, and the first word is programmed nevertheless. -/
theorem programs_behind_writeDisable :
    let fresh : SimulatedBoard := { version := ⟨1, 2⟩ }
    let b := fresh.accessedBy disabling
    (fresh.executionsBy disabling).map Execution.opcode? =
        [some .writeEnable, some .pageProgram, some .writeDisable] ∧
      b.writeEnabled = false ∧ b.rom.wordAt 0 = Rom.erasedWord ∧
      (b.accessed (.write Register.command ((zeroing 4 true).control Control.execute))).rom.wordAt 0
        = 0 := by
  intro fresh b
  have hpage : b.page = some #[(0, 0)] := by decide +kernel
  have hruns : b.executionBy (.write Register.command ((zeroing 4 true).control Control.execute)) =
      some ⟨some .pageProgram, true, 4, 0⟩ := by decide +kernel
  refine ⟨by decide +kernel, by decide +kernel, by decide +kernel, ?_⟩
  rw [rom_accessed_of_closing hruns rfl rfl hpage]
  simp [RomContents.commit, RomContents.wordAt_program]

end SimulatedBoard
end Reflash
