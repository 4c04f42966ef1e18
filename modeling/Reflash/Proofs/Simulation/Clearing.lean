import Reflash.Proofs.Simulation.Latch
import Reflash.Proofs.Simulation.Programming
/-!
# Programming only clears bits

The words that are sent to a ROM wait in its page buffer until a command closes it; a reset or a
reboot throws them away. `Sent` follows the words through a history of register accesses, and looks
neither at the page buffer nor at the ROM. Unless the ROM is erased, its contents are the old ones
with all the words that have been committed: each of them clears bits, and none sets any. And as
the address register is masked, no word lies beyond the end of the ROM.
-/

namespace Reflash

def Rom.wordsFor (index : Nat) (sent : List (Nat × UInt32)) : List UInt32 :=
  (sent.filter fun w => w.1 = index).map Prod.snd

namespace RomContents

/-- A word keeps the bits that no word which is programmed there clears. -/
theorem wordAt_commit (rom : RomContents) (sent : List (Nat × UInt32)) (index : Nat) :
    (rom.commit sent.toArray).wordAt index =
      (Rom.wordsFor index sent).foldl (· &&& ·) (rom.wordAt index) := by
  induction sent generalizing rom with
  | nil => rfl
  | cons w rest ih =>
      obtain ⟨at', word⟩ := w
      rw [commit_cons, ih, wordAt_program]
      by_cases h : at' = index
      · simp [Rom.wordsFor, h]
      · simp [Rom.wordsFor, h]

theorem mem_commit {rom : RomContents} {page : Array (Nat × UInt32)} {index : Nat}
    (h : index ∈ (rom.commit page).programmed) :
    index ∈ rom.programmed ∨ ∃ w ∈ page, w.1 = index := by
  obtain ⟨sent⟩ := page
  induction sent generalizing rom with
  | nil => exact .inl h
  | cons w rest ih =>
      rw [commit_cons] at h
      obtain hstored | ⟨w', hw', heq⟩ := ih h
      · rw [program, load, Std.HashMap.mem_insert, beq_iff_eq] at hstored
        obtain heq | hstored := hstored
        · exact .inr ⟨w, by simp, heq⟩
        · exact .inl hstored
      · refine .inr ⟨w', ?_, heq⟩
        simp only [List.mem_toArray, List.mem_cons] at hw' ⊢
        exact .inr hw'

end RomContents

/-- Bits can only be cleared by further words. -/
theorem foldl_and_and (words : List UInt32) (word : UInt32) :
    words.foldl (· &&& ·) word &&& word = words.foldl (· &&& ·) word := by
  induction words generalizing word with
  | nil => exact UInt32.and_self
  | cons first rest ih =>
      have hrest := ih (word &&& first)
      calc rest.foldl (· &&& ·) (word &&& first) &&& word
        _ = rest.foldl (· &&& ·) (word &&& first) &&& (word &&& first) &&& word := by rw [hrest]
        _ = rest.foldl (· &&& ·) (word &&& first) &&& (word &&& first) := by
            rw [UInt32.and_assoc, UInt32.and_comm (word &&& first), ← UInt32.and_assoc word,
              UInt32.and_self]
        _ = rest.foldl (· &&& ·) (word &&& first) := hrest

/-! ## Words on their way to the ROM -/

def RegisterAccess.drops : RegisterAccess → Bool
  | .write offset value =>
    offset == Register.reset || offset == Register.command && hasBits value Control.reboot
  | .read _ | .probe => false

/-- What has become of the words that were sent to a ROM, each with its index. -/
structure Sent where
  /-- These will be programmed when the page buffer is closed. -/
  waiting : List (Nat × UInt32) := []
  committed : List (Nat × UInt32) := []

instance (g : RomGuard) : Decidable g.Allows := inferInstanceAs (Decidable (_ ∧ _))

namespace Sent

/-- A page-program command joins the words that wait. If it closes the buffer, all of them are
committed. -/
def taking (sent : Sent) (e : Execution) : Sent :=
  let waiting := sent.waiting ++ [(e.address.toNat / Rom.wordBytes, e.data)]
  if e.endOfCommand then ⟨[], sent.committed ++ waiting⟩ else { sent with waiting }

/-- What becomes of the words in an access. A word that is sent while none waits is thrown away
unless the latch is set and no write is in progress. -/
def after (sent : Sent) (b : SimulatedBoard) (a : RegisterAccess) : Sent :=
  if a.drops then { sent with waiting := [] }
  else match b.executionBy a with
    | none => sent
    | some e =>
      if e.opcode? = some .pageProgram ∧ (sent.waiting ≠ [] ∨ b.guard.Allows) then sent.taking e
      else sent

def page? (sent : Sent) : Option (Array (Nat × UInt32)) :=
  if sent.waiting = [] then none else some sent.waiting.toArray

theorem page?_ne_none (sent : Sent) : sent.page? ≠ none ↔ sent.waiting ≠ [] := by
  rw [page?]
  split
  next h => simp [h]
  next h => simp [h]

theorem page?_getD (sent : Sent) : sent.page?.getD #[] = sent.waiting.toArray := by
  rw [page?]
  split
  next h => rw [h]; rfl
  next => rfl

end Sent

namespace SimulatedBoard

open RomGuard (Effect)

variable {b : SimulatedBoard} {a : RegisterAccess} {e : Execution}

def sentBy (b : SimulatedBoard) (sent : Sent) : List RegisterAccess → Sent
  | [] => sent
  | a :: rest => (b.accessed a).sentBy (sent.after b a) rest

/-- No bulk erase takes effect in these accesses: none is run while the latch is set and no write is
in progress. -/
def ErasesNothing (b : SimulatedBoard) : List RegisterAccess → Prop
  | [] => True
  | a :: rest =>
    (∀ e ∈ b.executionBy a, e.opcode? = some .bulkErase → ¬b.guard.Allows) ∧
      (b.accessed a).ErasesNothing rest

instance decidableErasesNothing (b : SimulatedBoard) :
    (history : List RegisterAccess) → Decidable (b.ErasesNothing history)
  | [] => .isTrue trivial
  | a :: rest =>
    have := decidableErasesNothing (b.accessed a) rest
    inferInstanceAs (Decidable (_ ∧ _))

/-! ### One access -/

theorem executionBy_of_drops (h : a.drops = true) : b.executionBy a = none := by
  cases a with
  | read | probe => rfl
  | write offset value =>
      rw [executionBy, execution?]
      split
      next hcommand =>
        have hreboot : hasBits value Control.reboot = true := by
          simpa [RegisterAccess.drops, hcommand,
            (by decide : Register.command ≠ Register.reset)] using h
        simp [started?, hreboot]
      next => rfl

theorem guard_of_drops (h : a.drops = true) :
    (b.accessed a).guard = { b.guard with writeEnabled := false, page := none } := by
  cases a with
  | read | probe => cases h
  | write offset value =>
      by_cases hreset : offset = Register.reset
      · rw [accessed, write, if_pos hreset]
        rfl
      · obtain ⟨hcommand, hreboot⟩ : offset = Register.command ∧
            hasBits value Control.reboot = true := by
          simpa [RegisterAccess.drops, hreset] using h
        rw [accessed, write, if_neg hreset, if_pos hcommand, writeControl, if_pos hreboot]
        rfl

theorem guard_of_none (hdrops : a.drops = false) (hnone : b.executionBy a = none) :
    (b.accessed a).guard = b.guard := by
  cases a with
  | read offset => exact b.guard_read offset
  | probe => rfl
  | write offset value =>
      have hreset : offset ≠ Register.reset := by
        rintro rfl
        cases hdrops
      rw [accessed, write, if_neg hreset]
      by_cases hcommand : offset = Register.command
      · have hreboot : ¬hasBits value Control.reboot = true := by
          simpa [RegisterAccess.drops, hcommand,
            (by decide : Register.command ≠ Register.reset)] using hdrops
        have hidle : b.started? value = none := by
          simpa [executionBy, execution?, hcommand] using hnone
        rw [if_pos hcommand, writeControl, if_neg hreboot]
        dsimp only
        rw [show ({ b with activity.writes := b.activity.writes + 1 } : SimulatedBoard).started?
          value = b.started? value from rfl, hidle]
        rfl
      · rw [if_neg hcommand]
        split_ifs <;> rfl

theorem executionBy_operands (h : b.executionBy a = some e) :
    e.address = b.address ∧ e.data = b.data := by
  cases a with
  | read | probe => cases h
  | write offset value =>
      rw [executionBy, execution?] at h
      split at h
      next =>
        obtain ⟨field, -, rfl⟩ := Option.map_eq_some_iff.mp h
        exact ⟨rfl, rfl⟩
      next => cases h

theorem takesWords_iff {sent : Sent} (hpage : b.page = sent.page?) :
    b.guard.TakesWords ↔ sent.waiting ≠ [] ∨ b.guard.Allows := by
  rw [← sent.page?_ne_none, ← hpage]
  rfl

theorem pageWith_eq {sent : Sent} (hpage : b.page = sent.page?) (e : Execution) :
    b.guard.pageWith e =
      (sent.waiting ++ [(e.address.toNat / Rom.wordBytes, e.data)]).toArray := by
  have hguard : b.guard.page = sent.page? := hpage
  rw [RomGuard.pageWith, hguard, sent.page?_getD, List.push_toArray]

/-- A command takes a word, or it leaves the page buffer alone and erases the ROM at most. -/
theorem effect_cases {g g' : RomGuard} (h : Effect g (some e) g') :
    ((e.opcode? = some .pageProgram ∧ g.TakesWords) ∧
      if e.endOfCommand then g'.page = none ∧ g'.rom = g.rom.commit (g.pageWith e)
      else g'.page = some (g.pageWith e) ∧ g'.rom = g.rom) ∨
    (¬(e.opcode? = some .pageProgram ∧ g.TakesWords) ∧ g'.page = g.page ∧
      (g'.rom = g.rom ∨ e.opcode? = some .bulkErase ∧ g.Allows)) := by
  have hother : ∀ {opcode}, e.opcode? = some opcode → opcode ≠ .pageProgram →
      ¬(e.opcode? = some .pageProgram ∧ g.TakesWords) := fun hopcode hne htaken =>
    hne (Effect.opcode_eq hopcode htaken.1)
  cases h with
  | rests _ hignored =>
      refine .inr ⟨?_, rfl, .inl rfl⟩
      rintro ⟨hopcode, htaken⟩
      have hlost := hignored e rfl
      rw [hopcode] at hlost
      exact hlost htaken
  | enabled hopcode => exact .inr ⟨hother hopcode (by decide), rfl, .inl rfl⟩
  | disabled hopcode => exact .inr ⟨hother hopcode (by decide), rfl, .inl rfl⟩
  | erased hopcode hallowed =>
      exact .inr ⟨hother hopcode (by decide), rfl, .inr ⟨hopcode, hallowed⟩⟩
  | taken hopcode hclosing htaken =>
      rw [hclosing]
      exact .inl ⟨⟨hopcode, htaken⟩, rfl, rfl⟩
  | committed hopcode hclosing htaken =>
      rw [hclosing]
      exact .inl ⟨⟨hopcode, htaken⟩, rfl, rfl⟩

/-- The page buffer holds the words that wait, and unless a bulk erase takes effect, the ROM is
programmed with those that have been committed. -/
theorem stores_accessed {sent : Sent} (hpage : b.page = sent.page?) (a : RegisterAccess) :
    (b.accessed a).page = (sent.after b a).page? ∧
      ((∀ e ∈ b.executionBy a, e.opcode? = some .bulkErase → ¬b.guard.Allows) →
        ∀ rom : RomContents, b.rom = rom.commit sent.committed.toArray →
          (b.accessed a).rom = rom.commit (sent.after b a).committed.toArray) := by
  rw [Sent.after]
  cases hdrops : a.drops with
  | true =>
      have hguard := guard_of_drops (b := b) hdrops
      refine ⟨congrArg RomGuard.page hguard, fun _ rom hrom => ?_⟩
      exact (congrArg RomGuard.rom hguard).trans hrom
  | false =>
      rw [if_neg Bool.false_ne_true]
      cases hruns : b.executionBy a with
      | none =>
          have hguard := guard_of_none hdrops hruns
          refine ⟨(congrArg RomGuard.page hguard).trans hpage, fun _ rom hrom => ?_⟩
          exact (congrArg RomGuard.rom hguard).trans hrom
      | some e =>
          have heffect := effect_accessed b a
          rw [hruns] at heffect
          dsimp only
          obtain ⟨htaken, hresult⟩ | ⟨hnot, hsame, hrom'⟩ := effect_cases heffect
          · rw [takesWords_iff hpage] at htaken
            rw [if_pos htaken, Sent.taking]
            rw [pageWith_eq hpage] at hresult
            split at hresult
            next hclosing =>
              rw [if_pos hclosing]
              refine ⟨hresult.1, fun _ rom hrom => hresult.2.trans ?_⟩
              have hbefore : b.guard.rom = rom.commit sent.committed.toArray := hrom
              rw [hbefore, ← RomContents.commit_append, List.append_toArray]
            next hopen =>
              rw [if_neg hopen]
              refine ⟨hresult.1.trans ?_, fun _ rom hrom => hresult.2.trans hrom⟩
              rw [Sent.page?, if_neg (by simp)]
          · rw [takesWords_iff hpage] at hnot
            rw [if_neg hnot]
            refine ⟨hsame.trans hpage, fun hkept rom hrom => ?_⟩
            obtain hrom' | ⟨herases, hallowed⟩ := hrom'
            · exact hrom'.trans hrom
            · exact absurd hallowed (hkept e rfl herases)

/-! ### Histories -/

theorem page_accessedBy {sent : Sent} (hpage : b.page = sent.page?)
    (history : List RegisterAccess) :
    (b.accessedBy history).page = (b.sentBy sent history).page? := by
  induction history generalizing b sent with
  | nil => exact hpage
  | cons a rest ih => exact ih (stores_accessed hpage a).1

theorem rom_accessedBy {sent : Sent} {rom : RomContents} (hpage : b.page = sent.page?)
    (hrom : b.rom = rom.commit sent.committed.toArray) {history : List RegisterAccess}
    (hkept : b.ErasesNothing history) :
    (b.accessedBy history).rom = rom.commit (b.sentBy sent history).committed.toArray := by
  induction history generalizing b sent with
  | nil => exact hrom
  | cons a rest ih =>
      obtain ⟨hfirst, hrest⟩ := hkept
      obtain ⟨hpage', hrom'⟩ := stores_accessed hpage a
      exact ih hpage' (hrom' hfirst rom hrom) hrest

/-! ### No word beyond the end -/

structure InRange (b : SimulatedBoard) : Prop where
  address : b.address.toNat < 2 ^ 24
  page : ∀ page ∈ b.page, ∀ w ∈ page, w.1 < 2 ^ 22
  rom : ∀ index ∈ b.rom.programmed, index < 2 ^ 22

theorem address_writeControl (b : SimulatedBoard) (word : UInt32) :
    (b.writeControl word).address = b.address := by
  rw [writeControl]
  split
  · rfl
  split
  next field _ =>
    rw [runCommand]
    split
    next opcode _ => exact (execute_frame _ _ opcode).1
    next => rfl
  next => rfl

theorem toNat_address_accessed (h : b.address.toNat < 2 ^ 24) (a : RegisterAccess) :
    (b.accessed a).address.toNat < 2 ^ 24 := by
  cases a with
  | read offset =>
      obtain ⟨_, _, hread⟩ := b.read_frame offset
      rw [accessed, hread]
      exact h
  | probe =>
      rw [accessed, probe_eq]
      exact h
  | write offset value =>
      rw [accessed, write]
      split
      · exact h
      split
      · rw [address_writeControl]
        exact h
      split
      · show (value &&& Rom.addressMask).toNat < 2 ^ 24
        rw [UInt32.toNat_and]
        exact Nat.lt_of_le_of_lt Nat.and_le_right (by decide)
      split <;> exact h

namespace InRange

theorem pageWith (h : b.InRange) (haddress : e.address = b.address) :
    ∀ w ∈ b.guard.pageWith e, w.1 < 2 ^ 22 := by
  intro w hw
  have hword : e.address.toNat / Rom.wordBytes < 2 ^ 22 := by
    have hbytes : Rom.wordBytes = 4 := rfl
    have haddress' := h.address
    rw [haddress, hbytes]
    omega
  rw [RomGuard.pageWith, Array.mem_push] at hw
  obtain hbefore | rfl := hw
  · cases hpage : b.page with
    | none =>
        have hguard : b.guard.page = none := hpage
        rw [hguard] at hbefore
        exact absurd hbefore (Array.not_mem_empty _)
    | some page =>
        have hguard : b.guard.page = some page := hpage
        rw [hguard] at hbefore
        exact h.page page hpage w hbefore
  · exact hword

theorem accessed (h : b.InRange) (a : RegisterAccess) : (b.accessed a).InRange := by
  have heffect := effect_accessed b a
  generalize hruns : b.executionBy a = e? at heffect
  generalize hguard : (b.accessed a).guard = g at heffect
  -- The guard tells what has become of the page buffer and of the ROM.
  have hall : (∀ page ∈ g.page, ∀ w ∈ page, w.1 < 2 ^ 22) ∧
      ∀ index ∈ g.rom.programmed, index < 2 ^ 22 := by
    cases heffect with
    | rests | enabled | disabled => exact ⟨h.page, h.rom⟩
    | dropped => exact ⟨nofun, h.rom⟩
    | erased =>
        refine ⟨h.page, fun index hindex => ?_⟩
        exact absurd hindex Std.HashMap.not_mem_empty
    | taken =>
        refine ⟨?_, h.rom⟩
        rintro _ ⟨⟩
        exact h.pageWith (executionBy_operands hruns).1
    | committed =>
        refine ⟨nofun, fun index hindex => ?_⟩
        obtain hstored | ⟨w, hw, rfl⟩ := RomContents.mem_commit hindex
        · exact h.rom index hstored
        · exact h.pageWith (executionBy_operands hruns).1 w hw
  subst hguard
  exact ⟨toNat_address_accessed h.address a, hall.1, hall.2⟩

theorem accessedBy (h : b.InRange) (history : List RegisterAccess) :
    (b.accessedBy history).InRange := by
  induction history generalizing b with
  | nil => exact h
  | cons a rest ih => exact ih (h.accessed a)

end InRange

/-! ## The ROM behind a history -/

/-- Whatever has been read, written and probed since a board was fresh, and whatever is in the
accesses to come: unless a bulk erase takes effect in them, each word of the ROM is the old one with
all the words for it that they commit, and so it has no bit that the old one has not. A page-program
command or a bulk erase is run by every access that changes the ROM, and no read, no probe, no reset
and no reboot runs anything. No word is ever stored beyond the end of the ROM, unless there was one
from the start. -/
theorem programming_only_clears (rom : RomContents) (version : Version)
    (rebootVersion : Option Version) (faults : Faults) (latency : Latency)
    (past more : List RegisterAccess) :
    let fresh : SimulatedBoard := { rom, version, rebootVersion, faults, latency }
    let b := fresh.accessedBy past
    let waiting := (fresh.sentBy {} past).waiting
    (b.ErasesNothing more → ∀ index,
      let old := b.rom.wordAt index
      let new := (b.accessedBy more).rom.wordAt index
      new &&& old = new ∧
        new = (Rom.wordsFor index (b.sentBy { waiting } more).committed).foldl (· &&& ·) old) ∧
    (∀ a, (∀ e ∈ b.executionBy a, e.opcode? ≠ some .pageProgram ∧ e.opcode? ≠ some .bulkErase) →
      (b.accessed a).rom = b.rom) ∧
    (∀ a, (∀ offset value, a ≠ .write offset value) ∨ a.drops = true → b.executionBy a = none) ∧
    ((∀ index ∈ rom.programmed, index < 2 ^ 22) → ∀ index ∈ b.rom.programmed, index < 2 ^ 22) := by
  intro fresh b waiting
  have hpage : b.page = ({ waiting } : Sent).page? := page_accessedBy rfl past
  refine ⟨?_, ?_, ?_, ?_⟩
  · intro hkept index old new
    have hcommitted : (b.accessedBy more).rom =
        b.rom.commit (b.sentBy { waiting } more).committed.toArray :=
      rom_accessedBy hpage rfl hkept
    have hnew : new =
        (Rom.wordsFor index (b.sentBy { waiting } more).committed).foldl (· &&& ·) old := by
      rw [← RomContents.wordAt_commit, ← hcommitted]
    exact ⟨by rw [hnew, foldl_and_and], hnew⟩
  · intro a hother
    by_contra hne
    obtain ⟨e, hruns, ⟨hopcode, -⟩ | ⟨hopcode, -⟩⟩ := (effect_accessed b a).of_rom_ne hne
    · exact (hother e hruns).2 hopcode
    · exact (hother e hruns).1 hopcode
  · rintro a (hlook | hdrops)
    · cases a with
      | read | probe => rfl
      | write offset value => exact absurd rfl (hlook offset value)
    · exact executionBy_of_drops hdrops
  · intro hrom
    have hfresh : fresh.InRange := ⟨(by decide : (0 : UInt32).toNat < 2 ^ 24), nofun, hrom⟩
    exact (hfresh.accessedBy past).rom

/-- Two words for one address, of which the first already waits: both of them clear bits of the word
that was there. The reset behind them comes too late to throw them away. -/
theorem programming_only_clears_twice :
    let rom := RomContents.blank.load 0 0x0FF0
    let fresh : SimulatedBoard := { rom, version := ⟨1, 2⟩ }
    let word (data : UInt32) (closing : Bool) : Rom.Command :=
      { opcode := .pageProgram, address := some 0, data := some data, endOfCommand := closing }
    let past := issuing [{ opcode := .writeEnable }, word 0xF0FF false]
    let more := issuing [word 0x00FF true] ++ [.write Register.reset ResetRequest.both, .probe]
    let b := fresh.accessedBy past
    (fresh.sentBy {} past).waiting = [(0, 0xF0FF)] ∧ b.ErasesNothing more ∧
      b.rom.wordAt 0 = 0x0FF0 ∧ (b.accessedBy more).rom.wordAt 0 = 0x00F0 ∧
      (b.accessed .probe).rom = b.rom ∧ b.executionBy (.write Register.reset 3) = none ∧
      ∀ index ∈ b.rom.programmed, index < 2 ^ 22 := by
  intro rom fresh word past more b
  have hwaiting : (fresh.sentBy {} past).waiting = [(0, 0xF0FF)] := by decide +kernel
  have herases : b.ErasesNothing more := by decide +kernel
  have hcommitted : Rom.wordsFor 0 (b.sentBy { waiting := [(0, 0xF0FF)] } more).committed =
      [0xF0FF, 0x00FF] := by decide +kernel
  have hrange : ∀ index ∈ rom.programmed, index < 2 ^ 22 := by
    simp [rom, RomContents.load, RomContents.blank]
  obtain ⟨hclears, hother, hnone, hstored⟩ :=
    programming_only_clears rom ⟨1, 2⟩ none {} {} past more
  have hidle : ∀ e ∈ b.executionBy .probe,
      e.opcode? ≠ some .pageProgram ∧ e.opcode? ≠ some .bulkErase := by
    rintro e ⟨⟩
  have hpast : fresh.ErasesNothing past := by decide +kernel
  have hnothing : (fresh.sentBy {} past).committed = [] := by decide +kernel
  have hrom : b.rom = rom.commit (fresh.sentBy {} past).committed.toArray :=
    rom_accessedBy rfl rfl hpast
  have hold : b.rom.wordAt 0 = 0x0FF0 := by
    rw [hrom, hnothing]
    exact RomContents.wordAt_load .blank 0 0 0x0FF0
  have hnew := (hclears herases 0).2
  rw [hwaiting, hcommitted] at hnew
  refine ⟨hwaiting, herases, hold, hnew.trans ?_, hother .probe hidle, hnone _ (.inr rfl),
    hstored hrange⟩
  rw [show (fresh.accessedBy past).rom.wordAt 0 = 0x0FF0 from hold]
  decide

end SimulatedBoard
end Reflash
