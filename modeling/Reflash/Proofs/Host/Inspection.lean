import Reflash.Proofs.Host.Backup
import Reflash.Proofs.Host.Permission
import Reflash.Proofs.Simulation.Looking
/-!
# Looks at a board

To save, verify or identify a ROM the tool only looks at it. Of a run register writes show, and
those of a look are whole frames of commands that read, for one board; so on simulated boards
nothing that a board holds is changed. What a verification says is settled by the words in the ROM
alone, as long as nothing is wrong with the board.
-/

namespace Reflash

open scoped Computability

namespace Host

/-! ## What shows of a run -/

def writeInRun? : Turn workstation → Option Access
  | ⟨.engine r, answer⟩ => writeIn? ⟨r, answer⟩
  | _ => none

theorem filterMap_writeInRun? (turns : List (Turn workstation)) :
    turns.filterMap writeInRun? = (cyclesOf (engineTurns turns)).filter Access.isWrite := by
  rw [← filterMap_writeIn?, engineTurns, List.filterMap_filterMap]
  congr 1
  funext turn
  obtain ⟨r, answer⟩ := turn
  cases r <;> rfl

def ToolRequest.IsLook : ToolRequest → Prop
  | .engine r => r.IsLook
  | _ => True

theorem ToolRequest.IsLook.writeInRun? {r : ToolRequest} (h : r.IsLook) (answer : r.Answer) :
    Host.writeInRun? ⟨r, answer⟩ = none := by
  cases r with
  | engine r => exact writeIn?_of_isLook answer h
  | _ => rfl

theorem ToolRequest.IsQuiet.isLook {r : ToolRequest} (h : r.IsQuiet) : r.IsLook := by
  cases r with
  | engine r => exact Request.IsSilent.isLook h
  | _ => trivial

namespace Run

variable {σ ε α β : Type} {l : Language Access}

/-- What shows of the run is a word of the language, and a success is as promised. -/
def Shows (l : Language Access) (promised : α → Prop) (r : Run α) : Prop :=
  r.Traces writeInRun? l (fun _ => True) fun a _ => promised a

variable {promised : α → Prop} {ended : β → Prop} {before : σ → Prop} {after : α → σ → Prop}

theorem Shows.quiet_bind {r : Run α} {f : α → Run β} (hr : r.Shows 1 promised)
    (hf : ∀ a, promised a → (f a).Shows l ended) (hl : [] ∈ l) : Run.Shows l ended (r >>= f) :=
  Routine.Traces.quiet_bind hr (fun a _ ha => hf a ha () trivial) hl

theorem Shows.bind_quiet {r : Run α} {f : α → Run β} (hr : r.Shows l promised)
    (hf : ∀ a, promised a → (f a).Shows 1 ended) : Run.Shows l ended (r >>= f) :=
  Routine.Traces.bind_quiet hr fun a _ ha => hf a ha () trivial

theorem shows_ofExcept {result : Except ε α} {wrap : ε → RunError} :
    Run.Shows 1 (fun a => result = .ok a) (Routine.ofExcept (result.mapError wrap)) := by
  cases result with
  | ok a => exact Routine.Traces.pure rfl fun _ _ => rfl
  | error e => exact Routine.Traces.fail (wrap e) rfl

theorem Asks.shows {r : Run α} (h : Asks ToolRequest.IsLook r) : r.Shows 1 fun _ => True :=
  fun _ _ => (Dialogue.Keeps.traces h fun _ answer hr => hr.writeInRun? answer).mono
    (fun _ => id) fun _ _ _ _ => trivial

theorem Asks.shows_of_isQuiet {r : Run α} (h : Asks ToolRequest.IsQuiet r) :
    r.Shows 1 fun _ => True :=
  Asks.shows (h.mono (fun _ => ToolRequest.IsQuiet.isLook) fun _ _ => trivial)

theorem shows_engine {job : Job σ ε α} {s : σ} (h : job.Traces writeIn? l before after)
    (hs : before s) : (engine job s).Shows l fun p => ∀ a, p.1 = .ok a → after a p.2 := by
  intro u _
  have hjob : ((job s).embed (J := workstation) .engine fun _ answer => answer).Traces writeInRun?
      l fun result => ∀ a, result.1 = .ok a → after a result.2 := (h s hs).embed fun _ _ => rfl
  rw [← mul_one l]
  refine hjob.bind ?_
  rintro ⟨out, s'⟩ hafter
  cases out with
  | ok a =>
      refine Dialogue.traces_done rfl ?_
      rintro _ ⟨⟩ _ ⟨⟩
      exact hafter a rfl
  | failed e =>
      refine Dialogue.traces_done rfl ?_
      rintro _ ⟨⟩ _ ⟨⟩
  | offBus =>
      refine Dialogue.traces_done rfl ?_
      rintro _ ⟨⟩

theorem shows_must {wrap : ε → RunError} {job : Job σ ε α} {s : σ}
    (h : job.Traces writeIn? l before after) (hs : before s) :
    (must wrap job s).Shows l fun p => after p.1 p.2 := by
  refine Routine.Traces.bind_quiet (shows_engine h hs) ?_
  rintro ⟨result, s'⟩
  cases result with
  | ok a => exact Routine.Traces.pure rfl fun _ hafter => hafter a rfl
  | error e => exact Routine.Traces.fail (wrap e) rfl

theorem shows_always {job : Job Unit Empty α} {before : Unit → Prop} {after : α → Unit → Prop}
    (h : job.Traces writeIn? l before after) (hbefore : before ()) :
    (always job).Shows l fun a => after a () :=
  Routine.Traces.bind_quiet (shows_must h hbefore) fun _ => .pure rfl fun _ hafter => hafter

end Run

/-! ## What shows of a look at a board -/

def Operation.commands : Operation → Set Rom.Command
  | .save | .verify => Rom.wordReads
  | .id => Rom.idReads
  | .program => Set.univ

namespace Order

open ToolRequest

section Looks

variable {b : Board} (hb : b.Fits)
include hb

theorem shows_identify (o : Order) :
    (o.identify b).Shows (b.frames Rom.idReads)∗ fun _ => True := by
  have hid : (do RomSession.awaitEngine; RomSession.readId : RomJob UInt32).Traces writeIn?
      (b.frames Rom.idReads)∗ (fun s => s.board = b) fun _ s => s.board = b :=
    .bind (.of_looks (RomSession.keeps_awaitEngine (RomSession.knows_board b) hb trivial)) fun _ =>
      RomSession.sends_readId b hb
  have hversion : (b.readVersion : Job Unit Empty Version).Keeps Request.IsLook fun _ => True :=
    Board.keeps_readVersion hb trivial trivial
  refine Run.Shows.bind_quiet (Run.shows_must hid rfl) fun _ _ => Run.Asks.shows ?_
  exact .bind (Run.asks_always (hversion () trivial) fun _ hr => hr) fun _ => Run.asks_ask trivial

theorem shows_readBack (o : Order) (sizeBytes : Nat) :
    (o.readBack b sizeBytes).Shows (b.frames Rom.wordReads)∗ fun _ => True := by
  have hread : (RomSession.readBack sizeBytes).Traces writeIn? (b.frames Rom.wordReads)∗
      (fun p => p.1.board = b) fun _ p => p.1.board = b := by
    refine .bind (.of_looks ?_) fun _ =>
      RomSession.traces_download Exchange.isSilent_silent hb sizeBytes
    exact .within (RomSession.keeps_awaitEngine (RomSession.knows_board b) hb trivial)
      (fun _ ht => ht) fun _ _ _ hs => hs
  rw [readBack_eq]
  exact Run.Shows.bind_quiet (Run.shows_must hread rfl) fun _ _ => (Run.asks_pure _).shows

theorem shows_save (o : Order) : (o.save b).Shows (b.frames Rom.wordReads)∗ fun _ => True := by
  refine Run.Shows.quiet_bind Run.shows_ofExcept (fun path _ => ?_) (Language.nil_mem_kstar _)
  refine Run.Shows.bind_quiet (shows_readBack hb o _) fun rom _ => Run.Asks.shows ?_
  exact .bind (Run.asks_ofExcept _) fun _ => .bind (Run.asks_ask trivial) fun _ =>
    .bind (Run.asks_ofExcept _) fun _ => Run.asks_ask trivial

theorem shows_verify (o : Order) : (o.verify b).Shows (b.frames Rom.wordReads)∗ fun _ => True := by
  rw [verify_eq]
  refine Run.Shows.quiet_bind (asks_readImage o).shows_of_isQuiet (fun file _ => ?_)
    (Language.nil_mem_kstar _)
  exact Run.Shows.bind_quiet (shows_readBack hb o _) fun rom _ =>
    (asks_judge o b file rom).shows_of_isQuiet

theorem shows_perform (o : Order) {operation : Operation} (h : operation ≠ .program) :
    (o.perform b operation).Shows (b.frames operation.commands)∗ fun _ => True := by
  cases operation with
  | program => exact absurd rfl h
  | save => exact shows_save hb o
  | verify => exact shows_verify hb o
  | id => exact shows_identify hb o

end Looks

theorem shows_findBoards (o : Order) :
    o.findBoards.Shows 1 fun registry => ∀ b ∈ registry.boards, b = .geographic b.slot := by
  have hsearch : (Registry.discover Register.boardId isFlashAdc : Job Unit Empty Registry).Traces
      writeIn? 1 (fun _ => True) fun r _ => ∀ b ∈ r.boards, b = .geographic b.slot :=
    fun s hs => Dialogue.Keeps.traces (Registry.gives_discover isFlashAdc (by decide) s hs)
      fun _ answer => writeIn?_of_isLook answer
  rw [findBoards_eq]
  refine Run.Shows.quiet_bind (Run.shows_always hsearch trivial) (fun found hfound => ?_) rfl
  dsimp only
  split
  · exact Routine.Traces.fail RunError.noBoards rfl
  · refine Run.Shows.quiet_bind (asks_remark _).shows_of_isQuiet (fun _ _ => ?_) rfl
    exact Routine.Traces.pure rfl fun _ _ b hb => hfound b (Registry.mem_boards_of_restrict hb)

/-- A look writes whole frames of the commands that it takes, to one board. -/
theorem shows_run (o : Order) {operation : Operation} (h : operation ≠ .program) :
    (o.run (.single operation)).Shows
      {writes | ∃ slot, writes ∈ ((Board.geographic slot).frames operation.commands)∗}
      fun _ => True := by
  have hnone : [] ∈ ({writes | ∃ slot,
      writes ∈ ((Board.geographic slot).frames operation.commands)∗} : Language Access) :=
    ⟨.first, Language.nil_mem_kstar _⟩
  rw [run_single]
  refine Run.Shows.quiet_bind o.shows_findBoards (fun registry hregistry => ?_) hnone
  refine Run.Shows.quiet_bind Run.shows_ofExcept (fun n _ => ?_) hnone
  refine Run.Shows.quiet_bind Run.shows_ofExcept (fun board hboard => ?_) hnone
  have hgeographic := hregistry board (Registry.mem_boards_of_resolve hboard)
  have hfits : board.Fits := hgeographic ▸ board.slot.fits_geographic
  refine (shows_perform hfits o h).conseq (fun _ => id) (fun writes hwrites => ?_) fun _ _ => id
  rw [hgeographic] at hwrites
  exact ⟨board.slot, hwrites⟩

/-! ## What a look leaves alone -/

end Order

/-- The request leaves the bus that is there, and what simulated boards on it hold. -/
def ToolRequest.IsHarmless : ToolRequest → Prop
  | .engine r => r.IsHarmless
  | .simulate _ | .openWindow _ => False
  | .failedCycles | .readFile _ | .writeFile _ _ | .print _ | .readLine => True

def Machine.HoldsAs (c : SimulatedCrate) (m : Machine) : Prop :=
  ∃ c', m.bus = .inr (.ofCrate c') ∧ c'.contents = c.contents

theorem Machine.HoldsAs.handler {c : SimulatedCrate} {r : ToolRequest} {m : Machine}
    (hr : r.IsHarmless) (h : HoldsAs c m) : HoldsAs c (handler r m).2 := by
  obtain ⟨files, _, desk⟩ := m
  obtain ⟨c', hbus, hcontents⟩ := h
  cases hbus
  cases r with
  | engine r =>
      refine ⟨(Bus.handler r c').2, ?_, (c'.contents_handler hr).trans hcontents⟩
      cases r <;> rfl
  | simulate | openWindow => exact hr.elim
  | failedCycles | readFile | print | readLine => exact ⟨c', rfl, hcontents⟩
  | writeFile path bytes =>
      rw [Machine.handler]
      split
      · exact ⟨c', rfl, hcontents⟩
      · exact ⟨c', rfl, hcontents⟩

namespace Order

theorem isHarmless_of_plays {o : Order} {operation : Operation} (h : operation ≠ .program)
    {turns : List (Turn workstation)} {result : Outcome RunError Unit × Unit}
    (hplays : (o.run (.single operation) ()).Plays turns result) :
    ∀ turn ∈ turns, turn.1.IsHarmless := by
  have hlook : ∀ cmd ∈ operation.commands, cmd.Looks := by
    intro cmd hcmd
    cases operation with
    | program => exact absurd rfl h
    | save | verify => exact Rom.looks_of_mem_wordReads hcmd
    | id => exact Rom.looks_of_mem_idReads hcmd
  obtain ⟨⟨slot, hwrites⟩, -⟩ := shows_run o h () trivial turns result hplays
  rintro ⟨request, answer⟩ hturn
  -- A run is allowed to change the bus as little as it is allowed to write anywhere.
  have hallowed : ∃ past, o.Allows (.single operation) past request := by
    obtain ⟨before, after, hturns⟩ := List.append_of_mem hturn
    exact ⟨before, (heeds_run o (.single operation) [] () rfl).of_plays hplays hturns⟩
  obtain ⟨past, hallowed⟩ := hallowed
  cases request with
  | engine r =>
      cases r with
      | write address value =>
          exact Request.isHarmless_of_mem_kstar hlook hwrites
            (List.mem_filterMap.mpr ⟨_, hturn, rfl⟩)
      | read | probe | pause | tick | remark | report => trivial
  | simulate | openWindow => exact hallowed.elim
  | failedCycles | readFile | writeFile | print | readLine => trivial

theorem holdsAs_run {o : Order} {operation : Operation} (h : operation ≠ .program) {m : Machine}
    {c : SimulatedCrate} (hbus : m.bus = .inr (.ofCrate c)) :
    (m.run (o.run (.single operation))).2.HoldsAs c := by
  have hplays : ∀ {turns result}, (o.run (.single operation) ()).Plays turns result →
      ∀ turn ∈ turns, turn.1.IsHarmless := isHarmless_of_plays h
  rw [Machine.run]
  generalize o.run (.single operation) () = work at hplays
  have hheld : (work.run Machine.handler m).2.HoldsAs c :=
    Dialogue.run_preserves (Machine.HoldsAs c) (fun _ _ => Machine.HoldsAs.handler)
      (hplays (work.plays_turns Machine.handler m)) ⟨c, hbus, rfl⟩
  exact hheld

end Order
end Host

/-! ## Verdicts -/

namespace SimulatedBoard

variable {b : SimulatedBoard} {budgets : Budgets}

/-- Nothing is wrong with the board, its command engine has not stopped, and the budgets suffice to
wait for it. -/
structure IsSound (b : SimulatedBoard) (budgets : Budgets) : Prop where
  faults : b.faults = {}
  running : b.hung = false
  ready : b.notReady < budgets.readyTries
  polled : 0 < budgets.commandReadyTries

theorem IsSound.readsBack (h : b.IsSound budgets) : b.ReadsBack budgets := by
  refine ⟨⟨⟨?_, h.running⟩, h.ready⟩, h.polled, ?_⟩
  · rw [h.faults]
  · rw [h.faults]

theorem IsSound.readWords_eq (h : b.IsSound budgets) {count : Nat}
    (hsize : count ≤ Rom.capacity / Rom.wordBytes) :
    b.readWords count = (List.range count).map b.rom.wordAt := by
  have hshown : b.shown = b.rom.wordAt := by
    funext index
    rw [shown, h.faults, if_neg (by simp)]
  rw [SimulatedBoard.readWords_eq hsize, hshown]

end SimulatedBoard

namespace Host.Order

variable {o : Order} {files : Files} {c : SimulatedCrate} {slot : Slot} {b : SimulatedBoard}
  {path : String} {image : Image}

/-- A sound board that is reached is verified exactly if its ROM starts with the words of the
file. -/
theorem Reaches.ends_verify (h : o.Reaches c slot b) (hsound : b.IsSound o.config.update.budgets)
    (hfile : o.arguments.file = some path)
    (hread : Image.ofFile path (files.read path) = .ok image) :
    ∃ out c', (o.run (.single .verify)).Ends files c out files c' ∧
      (out = .ok () ↔ image.words = (List.range image.wordCount).map b.rom.wordAt) := by
  obtain ⟨hwords, hbytes⟩ := Image.words_of_ofFile hread
  have hsize : image.wordCount ≤ Rom.capacity / Rom.wordBytes := by
    unfold Image.sizeBytes Rom.maxImageBytes Rom.capacity Rom.pageBytes Rom.wordBytes at *
    omega
  obtain ⟨c₁, b₁, hb₁, halike, hrun⟩ := h.ends_run
  obtain ⟨out, c', hverify, hout⟩ :=
    ends_verify_iff hfile hread rfl hsize hb₁ (hsound.readsBack.of_alike halike)
  refine ⟨out, c', hrun hverify, hout.trans ?_⟩
  rw [hwords, SimulatedBoard.readWords_of_alike halike, hsound.readWords_eq hsize]
  exact Option.some_inj

/-! ## Looks -/

/-- Saving, verifying and identifying only look. On any bus they write nothing but whole frames of
the commands that they take, to a single board. On simulated boards, whatever state these are in and
however the run ends, each board holds afterwards what it held before. And a sound board that is
reached is verified exactly if its ROM starts with the words of the file. -/
theorem only_looks {o : Order} {operation : Operation} (h : operation ≠ .program) :
    (∀ turns result, (o.run (.single operation) ()).Plays turns result →
      ∃ slot, (cyclesOf (engineTurns turns)).filter Access.isWrite ∈
        ((Board.geographic slot).frames operation.commands)∗) ∧
    ∀ {m m' : Machine} {c : SimulatedCrate} {out : Outcome RunError Unit},
      m.bus = .inr (.ofCrate c) → m.run (o.run (.single operation)) = (out, m') →
        (∃ c', m'.bus = .inr (.ofCrate c') ∧ c'.contents = c.contents) ∧
        ∀ {slot b path image}, operation = .verify → o.Reaches c slot b →
          b.IsSound o.config.update.budgets → o.arguments.file = some path →
          Image.ofFile path (m.files.read path) = .ok image →
            (out = .ok () ↔ image.words = (List.range image.wordCount).map b.rom.wordAt) := by
  refine ⟨fun turns result hplays => ?_, fun {m m' c out} hbus hrun => ⟨?_, ?_⟩⟩
  · obtain ⟨hwrites, -⟩ := shows_run o h () trivial turns result hplays
    rwa [filterMap_writeInRun?] at hwrites
  · have hheld := holdsAs_run (o := o) h hbus
    rwa [hrun] at hheld
  · rintro slot b path image rfl hreaches hsound hfile hread
    obtain ⟨out', c', hends, hout⟩ := hreaches.ends_verify hsound hfile hread
    obtain ⟨rfl, -⟩ := hends.eq_of_run rfl hbus hrun
    exact hout

/-- A blank board in the middle of things: a page buffer is open, and a write is in progress. -/
def openBoard : SimulatedBoard :=
  { version := ⟨1, 2⟩, writeEnabled := true, busy := 3, page := some #[(0, 7)] }

def openMachine (words : List UInt32) : Machine where
  files := ({} : Files).store ⟨.working, "rom.bin"⟩ (.ofBytes (BigEndian.encode words))
  bus := .inr (.ofCrate (({} : SimulatedCrate).insert .third openBoard))

def openOrder : Order := { arguments := { file := some "rom.bin", address := 0x180000 } }

private theorem ofFile_openMachine (word : UInt32) :
    Image.ofFile "rom.bin" ((openMachine [Rom.erasedWord, word]).files.read "rom.bin") =
      .ok { contents? := some [Rom.erasedWord, word], source? := some "rom.bin" } := by
  have hsize : (Content.ofBytes (BigEndian.encode [Rom.erasedWord, word])).size ≠ 0 := by
    show (BigEndian.encode [Rom.erasedWord, word]).size ≠ 0
    rw [BigEndian.size_encode]
    exact Nat.succ_ne_zero 7
  have hpos : 0 < [Rom.erasedWord, word].length := Nat.succ_pos 1
  rw [openMachine, read_store_rom hsize, Image.ofFile_encode "rom.bin" hpos]
  exact if_neg (by show ¬Rom.maxImageBytes < 2 * Rom.wordBytes; decide)

theorem only_looks_openBoard :
    Operation.verify ≠ .program ∧
      openOrder.Reaches (({} : SimulatedCrate).insert .third openBoard) .third openBoard ∧
      openBoard.IsSound openOrder.config.update.budgets ∧
      (∃ turns result slot, (openOrder.run (.single .verify) ()).Plays turns result ∧
        (cyclesOf (engineTurns turns)).filter Access.isWrite ∈
          ((Board.geographic slot).frames Rom.wordReads)∗) ∧
      (∃ m' c', (openMachine [Rom.erasedWord, Rom.erasedWord]).run
          (openOrder.run (.single .verify)) = (.ok (), m') ∧
        m'.bus = .inr (.ofCrate c') ∧
        c'.contents = (({} : SimulatedCrate).insert .third openBoard).contents) ∧
      ((openMachine [Rom.erasedWord, 7]).run (openOrder.run (.single .verify))).1 ≠ .ok () := by
  have hreaches : openOrder.Reaches (({} : SimulatedCrate).insert .third openBoard) .third
      openBoard := {
    there := SimulatedCrate.board?_insert_self ..
    back := rfl
    covered := rfl
    named := .inr (.inl rfl) }
  have hsound : openBoard.IsSound openOrder.config.update.budgets :=
    ⟨rfl, rfl, by decide, by decide⟩
  have hother : Operation.verify ≠ .program := by decide
  have hblank : (List.range 2).map openBoard.rom.wordAt = [Rom.erasedWord, Rom.erasedWord] := by
    simp [openBoard, RomContents.wordAt_blank, List.range_succ]
  obtain ⟨hframes, hlooks⟩ := only_looks (o := openOrder) hother
  refine ⟨hother, hreaches, hsound, ?_, ?_, ?_⟩
  · have hplays := Dialogue.plays_turns Machine.handler (openOrder.run (.single .verify) ())
      (openMachine [Rom.erasedWord, 7])
    obtain ⟨slot, hslot⟩ := hframes _ _ hplays
    exact ⟨_, _, slot, hplays, hslot⟩
  · obtain ⟨⟨c', hbus', hcontents⟩, hverdict⟩ :=
      hlooks (m := openMachine [Rom.erasedWord, Rom.erasedWord]) rfl rfl
    have hok := (hverdict rfl hreaches hsound rfl (ofFile_openMachine _)).mpr hblank.symm
    exact ⟨_, c', congrArg (fun out => (out, _)) hok, hbus', hcontents⟩
  · obtain ⟨-, hverdict⟩ := hlooks (m := openMachine [Rom.erasedWord, 7]) rfl rfl
    intro hok
    have hsame := (hverdict rfl hreaches hsound rfl (ofFile_openMachine _)).mp hok
    exact absurd (hsame.trans hblank) (by decide)

end Host.Order
end Reflash
