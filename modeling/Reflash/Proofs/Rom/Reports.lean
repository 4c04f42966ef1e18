import Reflash.Image.Compare
import Reflash.Proofs.Progress.Reports
import Reflash.Proofs.Rom.Conduct
/-!
# What driving a ROM reports

A session with a ROM reports nothing of its own. Its loops report what they are given to report,
once for each of their turns: a wait at most as often as its budget allows, and a transfer or a
comparison exactly once for each word that it gets through.
-/

namespace Reflash

/-! ## Single commands -/

section Board

variable {σ ε : Type} {b : Board} {holds : σ → Prop} (hb : b.Fits)
include hb

namespace Board

theorem reports_write_bind {α : Type} {offset value : UInt32}
    (hoffset : offset ≤ Register.engineStatus) {f : Unit → Job σ ε α} {s : σ}
    {ok : List Event → α → σ → Prop} {failed : List Event → ε → σ → Prop}
    (hf : (f ()).Reports s ok failed) : (b.write offset value >>= f).Reports s ok failed := by
  rw [hb.write_eq hoffset]
  exact .ask_bind (q := .write (b.base + offset) value) trivial fun _ => hf

theorem mute_readStatus (readyTries : Nat) :
    (b.readStatus readyTries : Job σ RomError UInt32).Keeps Request.IsMute holds :=
  .bind (keeps_awaitReady hb trivial _ _) fun _ =>
    .bind (keeps_issue hb trivial fun _ _ => trivial) fun _ =>
      .bind (keeps_awaitReady hb trivial _ _) fun _ => keeps_readback hb trivial

theorem mute_awaitWrite (readyTries interval tries left : Nat) :
    (b.awaitWrite readyTries interval Exchange.silent tries left : Job σ RomError Nat).Keeps
      Request.IsMute holds := by
  induction left with
  | zero => exact .fail _
  | succ left ih =>
      refine .bind (mute_readStatus hb _) fun status => .ite ?_ ?_
      · refine .bind (.lift trivial) fun _ => ?_
        exact .bind (Job.keeps_pause trivial) fun _ => ih
      · exact .bind (Job.keeps_remark trivial) fun _ => .pure _

/-- A wait for the end of a write tells every status that still shows one. -/
theorem counts_awaitWrite (e : Event) (readyTries interval tries left : Nat) :
    (b.awaitWrite readyTries interval (Exchange.report e) tries left :
        Job σ RomError Nat).Counts e holds (· ≤ left) (· ≤ left) := by
  induction left with
  | zero => exact .fail (Nat.le_refl 0)
  | succ left ih =>
      refine .mute_bind (mute_readStatus hb _) (fun status => .ite (fun _ => ?_) fun _ => ?_)
        (Nat.zero_le _)
      · exact .report_bind (.mute_bind (Job.keeps_pause trivial) (fun _ => ih) (Nat.zero_le left))
          (fun _ => Nat.succ_le_succ) fun _ => Nat.succ_le_succ
      · exact .mute (.bind (Job.keeps_remark trivial) fun _ => .pure _) (Nat.zero_le _)
          (Nat.zero_le _)

end Board
end Board

/-! ## Sessions -/

namespace RomSession

structure IsOf (b : Board) (budgets : Budgets) (s : RomSession) : Prop where
  board_eq : s.board = b
  budgets_eq : s.budgets = budgets

variable {b : Board} {budgets : Budgets}

theorem knows_isOf : Knows b (IsOf b budgets) :=
  ⟨fun _ h => h.board_eq, fun _ _ h => ⟨h.board_eq, h.budgets_eq⟩⟩

section Mute

variable (hb : b.Fits)
include hb

theorem mute_command (cmd : Rom.Command) :
    (command cmd).Keeps Request.IsMute (IsOf b budgets) :=
  keeps_command knows_isOf hb trivial trivial fun _ _ => trivial

theorem mute_identify :
    (do awaitEngine; readId : RomJob UInt32).Keeps Request.IsMute (IsOf b budgets) :=
  .bind (keeps_awaitEngine knows_isOf hb trivial) fun _ =>
    keeps_query knows_isOf hb trivial trivial (fun _ _ => trivial) trivial

theorem mute_enableWrites : enableWrites.Keeps Request.IsMute (IsOf b budgets) := by
  refine .bind (mute_command hb _) fun _ => .bind (keeps_count knows_isOf _) fun _ => ?_
  refine .bind (.get_bind fun s hs => ?_) fun status => .ite (.fail _) (.pure ())
  rw [hs.board_eq]
  exact Board.mute_readStatus hb _

theorem mute_startErase : startErase.Keeps Request.IsMute (IsOf b budgets) :=
  .bind (mute_enableWrites hb) fun _ => mute_command hb _

theorem mute_writeWord (address word : UInt32) (lastOfPage : Bool) :
    (writeWord address word lastOfPage).Keeps Request.IsMute (IsOf b budgets) := by
  have hput : (putWord address word lastOfPage).Keeps Request.IsMute (IsOf b budgets) := by
    refine .bind (mute_command hb _) fun _ => .bind (keeps_count knows_isOf _) fun _ => ?_
    refine .ite (.bind (keeps_count knows_isOf _) fun _ => .get_bind fun _ _ => ?_) (.pure ())
    refine .bind (.get_bind fun s hs => ?_) fun _ => .pure ()
    rw [hs.board_eq]
    exact Board.mute_awaitWrite hb _ _ _ _
  rw [writeWord_eq]
  exact .ite (.bind (mute_enableWrites hb) fun _ => hput) hput

theorem mute_readWord (address : UInt32) (lastOfPage : Bool) :
    (readWord address lastOfPage).Keeps Request.IsMute (IsOf b budgets) :=
  .bind (keeps_query knows_isOf hb trivial trivial (fun _ _ => trivial) trivial) fun word =>
    .bind (keeps_count knows_isOf _) fun _ => .pure word

/-! ### Loops -/

variable (e : Event)

theorem counts_awaitErase :
    (awaitErase (Exchange.report e)).Counts e (IsOf b budgets) (· ≤ budgets.eraseTries)
      (· ≤ budgets.eraseTries) := by
  refine .get_bind fun s hs => .bind_mute (.get_bind fun s' hs' => ?_) (fun polls => ?_) fun _ => id
  · rw [hs'.board_eq, hs.budgets_eq]
    exact Board.counts_awaitWrite hb e _ _ _ _
  · exact .bind (Job.keeps_remark trivial) fun _ => .pure _

theorem counts_writeWordsFrom (index : Nat) (words : List UInt32) :
    (writeWordsFrom (Exchange.report e) index words).Counts e (IsOf b budgets) (· = words.length)
      (· ≤ words.length) := by
  induction words generalizing index with
  | nil => exact .mute (.pure index) rfl (Nat.le_refl 0)
  | cons word rest ih =>
      refine .mute_bind (mute_writeWord hb _ _ _) (fun _ => ?_) (Nat.zero_le _)
      exact .report_bind (ih (index + 1)) (fun _ => congrArg Nat.succ) fun _ => Nat.succ_le_succ

theorem counts_readWordsFrom (index : Nat) (sofar : List UInt32) (count : Nat) :
    (readWordsFrom (Exchange.report e) index sofar count).Counts e (IsOf b budgets) (· = count)
      (· ≤ count) := by
  induction count generalizing index sofar with
  | zero => exact .mute (.pure _) rfl (Nat.le_refl 0)
  | succ count ih =>
      refine .mute_bind (mute_readWord hb _ _) (fun word => ?_) (Nat.zero_le _)
      exact .report_bind (ih (index + 1) (word :: sofar)) (fun _ => congrArg Nat.succ) fun _ =>
        Nat.succ_le_succ

/-- An image that is programmed is told word by word, and is small enough for its words to be
counted. -/
theorem counts_program (image : Image) :
    (program image (Exchange.report e)).Counts e (IsOf b budgets)
      (fun n => n = image.wordCount ∧ n < UInt32.size) (· < UInt32.size) := by
  rw [program]
  cases himage : image.contents? with
  | none => exact .fail (by decide)
  | some words =>
      refine .ite (fun _ => .fail (by decide)) fun hsize => ?_
      have hcount : image.wordCount = words.length := by
        rw [Image.wordCount, Image.words, himage, Option.getD_some]
      rw [Image.sizeBytes, hcount, Nat.not_lt] at hsize
      have hlt : words.length < UInt32.size :=
        calc words.length
          _ ≤ words.length * Rom.wordBytes := Nat.le_mul_of_pos_right _ (by decide)
          _ ≤ Rom.maxImageBytes := hsize
          _ < UInt32.size := by decide
      have hwords : (writeWordsFrom (Exchange.report e) 0 words).Counts e (IsOf b budgets)
          (fun n => n = image.wordCount ∧ n < UInt32.size) (· < UInt32.size) := by
        refine (counts_writeWordsFrom hb e 0 words).mono ?_ fun n hn => Nat.lt_of_le_of_lt hn hlt
        rintro n rfl
        exact ⟨hcount.symm, hlt⟩
      exact hwords.bind_mute (fun behind => mute_writeWord hb _ _ _) fun n hn => hn.2

theorem counts_download (sizeBytes : Nat) :
    (download sizeBytes (Exchange.report e)).Counts e (fun p => IsOf b budgets p.1)
      (fun n => n = sizeBytes / Rom.wordBytes ∧ n < UInt32.size) (· < UInt32.size) := by
  refine .ite (fun _ => .fail (by decide)) fun hsize => ?_
  have hlt : sizeBytes / Rom.wordBytes < UInt32.size :=
    calc sizeBytes / Rom.wordBytes
      _ ≤ sizeBytes := Nat.div_le_self _ _
      _ ≤ Rom.capacity := Nat.le_of_not_lt fun hlarge => hsize (.inr hlarge)
      _ < UInt32.size := by decide
  refine .mute_bind (.modify fun _ hp => hp) (fun _ => ?_) (by decide)
  refine .bind_mute ?_ (fun words => .modify fun _ hp => hp) fun n hn => hn.2
  refine .within (Routine.Counts.mono (counts_readWordsFrom hb e 0 [] _) ?_ ?_) (fun _ hp => hp)
    fun _ _ _ hs => hs
  · rintro n rfl
    exact ⟨rfl, hlt⟩
  · exact fun n hn => Nat.lt_of_le_of_lt hn hlt

end Mute

end RomSession

/-! ## Comparing images -/

namespace Image

variable {σ : Type} (e : Event) {holds : σ → Prop}

theorem counts_compareFrom (index : Nat) (tally : Tally) (pairs : List (UInt32 × UInt32)) :
    (compareFrom (Exchange.report e) index tally pairs : Job σ RomError Tally).Counts e holds
      (· = pairs.length) (· ≤ pairs.length) := by
  induction pairs generalizing index tally with
  | nil => exact .mute (.pure tally) rfl (Nat.le_refl 0)
  | cons pair rest ih =>
      have hnext (tally : Tally) : (Routine.lift (Exchange.report e) >>= fun _ =>
          compareFrom (Exchange.report e) (index + 1) tally rest : Job σ RomError Tally).Counts e
            holds (· = rest.length + 1) (· ≤ rest.length + 1) :=
        .report_bind (ih (index + 1) tally) (fun _ => congrArg Nat.succ) fun _ => Nat.succ_le_succ
      rw [compareFrom]
      refine .ite (fun _ => hnext tally) fun _ => ?_
      dsimp only
      split
      · exact .mute_bind (Job.keeps_remark trivial) (fun _ => hnext _) (Nat.zero_le _)
      · exact hnext _

/-- A comparison tells every word of the file, unless it does not get to them. -/
theorem counts_compare (file rom : Image) :
    (file.compare rom (Exchange.report e) : Job σ RomError Unit).Counts e holds
      (· = file.wordCount) (· ≤ file.wordCount) := by
  refine .ite (fun _ => .fail (Nat.zero_le _)) fun _ => .ite (fun _ => .fail (Nat.zero_le _)) ?_
  intro hcount
  have hlength : (file.words.zip rom.words).length = file.wordCount := by
    rw [List.length_zip]
    exact Nat.min_eq_left (Nat.le_of_eq (Decidable.of_not_not hcount))
  rw [← hlength]
  exact .bind_mute (counts_compareFrom e 0 {} _) (fun tally => .ite (.fail _) (.pure ())) fun _ =>
    Nat.le_of_eq

end Image
end Reflash
