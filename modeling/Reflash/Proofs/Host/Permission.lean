import Reflash.Proofs.Discovery
import Reflash.Proofs.Host.Conduct
import Reflash.Proofs.Host.Finding
/-!
# Permission to write

The tool writes only where and when it was told to: to boards that it has found, that the
configuration covers and, if there is one board to work on, that the address names; and, where a ROM
is to be programmed, only once it has read an image and the user has agreed. What has been asked and
answered before a write shows all of this.
-/

namespace Reflash.Host

open Text

/-! ## What there is to see before a write -/

def linesOf (turns : List (Turn workstation)) : List (Except OsError String) :=
  turns.filterMap fun
    | ⟨.readLine, answer⟩ => some answer
    | _ => none

theorem linesOf_append (past more : List (Turn workstation)) :
    linesOf (past ++ more) = linesOf past ++ linesOf more :=
  List.filterMap_append

namespace Order

/-- The slot's board has been found, and the configuration covers it. -/
structure Remains (o : Order) (turns : List (Turn workstation)) (slot : Slot) : Prop where
  found : slot.IsFoundIn Register.boardId isFlashAdc (cyclesOf (engineTurns turns))
  covered : o.config.slots ≠ [] → slot ∈ o.config.slots

structure Aims (o : Order) (mode : Mode) (turns : List (Turn workstation)) (slot : Slot) :
    Prop where
  remains : o.Remains turns slot
  named : ∀ operation, mode = .single operation → o.arguments.Names (o.Remains turns) slot

def HasImage (o : Order) (turns : List (Turn workstation)) : Prop :=
  ∃ path content image, o.arguments.file = some path ∧ ⟨.readFile path, content⟩ ∈ turns ∧
    Image.ofFile path content = .ok image

/-- The user agreed beforehand, or has typed a first line whose first visible character is a letter
y. -/
def HasConsent (o : Order) (turns : List (Turn workstation)) : Prop :=
  o.arguments.yes = true ∨ ∃ line lines blanks letter rest,
    linesOf turns = .ok line :: lines ∧ line.toList = blanks ++ letter :: rest ∧
      (∀ c ∈ blanks, isBlank c = true) ∧ (letter = 'y' ∨ letter = 'Y')

/-- The slot's board is one to work on, and may be erased if the tool is to program ROMs. -/
structure MayWrite (o : Order) (mode : Mode) (turns : List (Turn workstation)) (slot : Slot) : Prop
    extends o.Aims mode turns slot where
  permitted : mode = .all ∨ mode = .single .program → o.HasImage turns ∧ o.HasConsent turns

/-- A register is only written where that may be done, and the bus stays the one that is there. -/
def Allows (o : Order) (mode : Mode) (turns : List (Turn workstation)) : ToolRequest → Prop
  | .engine (.write address _) =>
    ∃ slot, Slot.ofAddress? address = some slot ∧ o.MayWrite mode turns slot
  | .simulate _ | .openWindow _ => False
  | _ => True

end Order

/-! ## What stays known -/

section Known

variable {o : Order} {mode : Mode} {boards : List Board} {slot : Slot}
  {past more : List (Turn workstation)} {turn : Turn workstation} {r : ToolRequest}

def ToolRequest.IsLater : ToolRequest → Prop
  | .engine r => ∀ slot : Slot, r.address? ≠ some (slot.base + Register.boardId)
  | _ => True

theorem ToolRequest.IsQuiet.isLater (h : r.IsQuiet) : r.IsLater := by
  cases r with
  | engine r =>
      cases r with
      | read | write | probe => exact h.elim
      | pause | tick | remark | report => exact fun _ => nofun
  | _ => trivial

theorem ToolRequest.Concerns.isLater (hboards : ∀ b ∈ boards, b = .geographic b.slot)
    (h : Concerns boards r) : r.IsLater := by
  cases r with
  | engine r =>
      intro slot
      obtain hsilent | ⟨b, hb, hr⟩ := h
      · cases r with
        | read | write | probe => exact hsilent.elim
        | pause | tick | remark | report => nofun
      · rw [hboards b hb] at hr
        exact hr.address?_ne slot
  | _ => trivial

theorem linesOf_of_isQuiet (h : turn.1.IsQuiet) : linesOf (past ++ [turn]) = linesOf past := by
  obtain ⟨request, answer⟩ := turn
  rw [linesOf_append]
  cases request with
  | readLine => exact h.elim
  | _ => exact List.append_nil _

namespace Order

theorem remains_append (h : turn.1.IsLater) : o.Remains (past ++ [turn]) = o.Remains past := by
  have hfound : ∀ slot : Slot, slot.IsFoundIn Register.boardId isFlashAdc
      (cyclesOf (engineTurns (past ++ [turn]))) ↔
        slot.IsFoundIn Register.boardId isFlashAdc (cyclesOf (engineTurns past)) := by
    intro slot
    rw [engineTurns_append, cyclesOf_append]
    refine Slot.isFoundIn_append fun cycle hcycle heq => ?_
    obtain ⟨request, answer⟩ := turn
    cases request with
    | engine r =>
        have hof : Access.of? r answer = some cycle := by
          simpa [engineTurns, cyclesOf] using hcycle
        exact h slot ((Request.address?_eq_of_of? hof).trans (congrArg some heq))
    | _ => exact absurd hcycle List.not_mem_nil
  ext slot
  exact ⟨fun hr => ⟨(hfound slot).mp hr.found, hr.covered⟩,
    fun hr => ⟨(hfound slot).mpr hr.found, hr.covered⟩⟩

theorem Aims.append (h : o.Aims mode past slot) (hturn : turn.1.IsLater) :
    o.Aims mode (past ++ [turn]) slot where
  remains := by
    rw [remains_append hturn]
    exact h.remains
  named := by
    rw [remains_append hturn]
    exact h.named

theorem HasImage.append (h : o.HasImage past) : o.HasImage (past ++ more) := by
  obtain ⟨path, content, image, hfile, hread, himage⟩ := h
  exact ⟨path, content, image, hfile, List.mem_append_left more hread, himage⟩

theorem HasConsent.append (h : o.HasConsent past) : o.HasConsent (past ++ more) := by
  obtain hyes | ⟨line, lines, blanks, letter, rest, hlines, hline⟩ := h
  · exact .inl hyes
  · refine .inr ⟨line, lines ++ linesOf more, blanks, letter, rest, ?_, hline⟩
    rw [linesOf_append, hlines, List.cons_append]

theorem MayWrite.append (h : o.MayWrite mode past slot) (hturn : turn.1.IsLater) :
    o.MayWrite mode (past ++ [turn]) slot where
  toAims := h.toAims.append hturn
  permitted hmode := ⟨(h.permitted hmode).1.append, (h.permitted hmode).2.append⟩

theorem allows_of_concerns (hboards : ∀ b ∈ boards, b = .geographic b.slot)
    (hwrite : ∀ b ∈ boards, o.MayWrite mode past b.slot) (h : ToolRequest.Concerns boards r) :
    o.Allows mode past r := by
  cases r with
  | engine r =>
      cases r with
      | write address value =>
          obtain hsilent | ⟨b, hb, howns | hread⟩ := h
          · exact hsilent.elim
          · rw [hboards b hb] at howns
            exact ⟨b.slot, howns.inWindow, hwrite b hb⟩
          · cases hread
      | _ => trivial
  | simulate | openWindow => exact h.elim
  | _ => trivial

end Order
end Known

namespace Order

variable {o : Order} {mode : Mode} {registry : Registry} {boards : List Board} {board : Board}
  {past : List (Turn workstation)} {known : List (Turn workstation) → Prop}

/-! ## The parts of a run -/

theorem heeds_of_quiet {α : Type} {r : Run α} (h : Run.Asks ToolRequest.IsQuiet r)
    (hknown : ∀ past turn, known past → turn.1.IsQuiet → known (past ++ [turn])) :
    r.Heeds (o.Allows mode) (fun turns _ => known turns) fun _ turns _ => known turns := by
  refine h.heeds (fun past r _ hr => ?_) fun past r answer => hknown past ⟨r, answer⟩
  cases r with
  | engine r =>
      cases r with
      | write => exact hr.elim
      | _ => trivial
  | simulate | openWindow => exact hr.elim
  | _ => trivial

/-- Where boards may be written, a run that only concerns them writes nothing else. -/
theorem heeds_of_asks {α : Type} {r : Run α} (hboards : ∀ b ∈ boards, b = .geographic b.slot)
    (h : Run.Asks (ToolRequest.Concerns boards) r) :
    r.Heeds (o.Allows mode) (fun turns _ => ∀ b ∈ boards, o.MayWrite mode turns b.slot)
      fun _ turns _ => ∀ b ∈ boards, o.MayWrite mode turns b.slot :=
  h.heeds (fun _ _ hwrite hr => allows_of_concerns hboards hwrite hr) fun _ _ _ hwrite hr b hb =>
    (hwrite b hb).append (hr.isLater hboards)

def Lists (o : Order) (registry : Registry) (turns : List (Turn workstation)) : Prop :=
  ∀ slot base, registry.base? slot = some base ↔ base = slot.base ∧ o.Remains turns slot

theorem Lists.append (h : o.Lists registry past) {turn : Turn workstation}
    (hturn : turn.1.IsLater) : o.Lists registry (past ++ [turn]) := by
  rw [Lists, remains_append hturn]
  exact h

theorem Lists.boards_eq (h : o.Lists registry past) :
    ∀ b ∈ registry.boards, b = .geographic b.slot := by
  rintro ⟨slot, base⟩ hb
  rw [Registry.mem_boards, h] at hb
  exact congrArg (Board.mk slot) hb.1

theorem covers_eq_true_iff (c : CrateConfig) (slot : Slot) :
    c.covers slot = true ↔ c.slots ≠ [] → slot ∈ c.slots := by
  simp [CrateConfig.covers, imp_iff_not_or]

theorem lists_restrict {found : Registry}
    (h : ∀ slot base, found.base? slot = some base ↔ base = slot.base ∧
      slot.IsFoundIn Register.boardId isFlashAdc (cyclesOf (engineTurns past))) :
    o.Lists (found.restrict o.config.covers) past := by
  intro slot base
  rw [Registry.base?_restrict]
  split
  next hcovers =>
    rw [h]
    have hcovered := (covers_eq_true_iff o.config slot).mp hcovers
    exact and_congr_right fun _ => ⟨fun hfound => ⟨hfound, hcovered⟩, Remains.found⟩
  next hcovers =>
    refine iff_of_false nofun fun hremains => hcovers ?_
    exact (covers_eq_true_iff o.config slot).mpr hremains.2.covered

theorem heeds_findBoards (o : Order) (mode : Mode) :
    o.findBoards.Heeds (o.Allows mode) (fun turns _ => turns = []) fun registry turns _ =>
      linesOf turns = [] ∧ o.Lists registry turns := by
  have hlook : ∀ past r, Request.IsLook r → o.Allows mode past (.engine r) := by
    intro past r hr
    cases r with
    | write => exact hr.elim
    | _ => trivial
  have hlines : ∀ past r answer, linesOf past = [] →
      linesOf (past ++ [⟨.engine r, answer⟩]) = [] := by
    intro past r answer hpast
    rw [linesOf_append, hpast]
    rfl
  have hboardId : Register.boardId ≤ Register.engineStatus := by decide
  have hsearch := Run.heeds_always (fun past => hlook past) hlines
    (Registry.heeds_discover isFlashAdc hboardId)
  have hremark : ∀ registry r, (Run.remark r).Heeds (o.Allows mode)
      (fun turns _ => linesOf turns = [] ∧ o.Lists registry turns)
      fun _ turns _ => linesOf turns = [] ∧ o.Lists registry turns := by
    refine fun registry r => heeds_of_quiet (asks_remark r) fun past turn hpast hturn => ?_
    exact ⟨(linesOf_of_isQuiet hturn).trans hpast.1, hpast.2.append hturn.isLater⟩
  rw [findBoards_eq]
  refine .bind (hsearch.conseq ?_ fun _ _ _ h => h) fun found => ?_
  · rintro _ _ rfl
    exact ⟨rfl, rfl⟩
  · dsimp only
    split
    · exact .fail RunError.noBoards
    · refine .bind (fun past s h => ?_) fun _ => .pure fun _ _ hlists => hlists
      exact hremark _ _ past s ⟨h.1, lists_restrict h.2⟩

theorem heeds_readImage
    (hknown : ∀ past turn, known past → turn.1.IsQuiet → known (past ++ [turn])) :
    o.readImage.Heeds (o.Allows mode) (fun turns _ => known turns) fun _ turns _ =>
      known turns ∧ o.HasImage turns := by
  have hread : ∀ path, (Run.ask (.readFile path)).Heeds (o.Allows mode)
      (fun turns _ => known turns ∧ o.arguments.neededFile = .ok path) fun content turns _ =>
        known turns ∧ o.arguments.file = some path ∧ ⟨.readFile path, content⟩ ∈ turns := by
    refine fun path => Run.heeds_ask (r := .readFile path) (fun _ _ _ => trivial)
      fun turns _ content h => ?_
    exact ⟨hknown turns _ h.1 trivial, Arguments.file_of_neededFile h.2, by simp⟩
  have hremark : ∀ r, (Run.remark r).Heeds (o.Allows mode)
      (fun turns _ => known turns ∧ o.HasImage turns) fun _ turns _ =>
        known turns ∧ o.HasImage turns :=
    fun r => heeds_of_quiet (asks_remark r) fun past turn h hturn =>
      ⟨hknown past turn h.1 hturn, h.2.append⟩
  refine .bind Run.heeds_ofExcept fun path => .bind (hread path) fun content => ?_
  refine .bind Run.heeds_ofExcept fun image => .bind ?_ fun _ => .pure fun _ _ h => h
  exact (hremark _).conseq (fun turns _ h => ⟨h.1.1, path, content, image, h.1.2.1, h.1.2.2, h.2⟩)
    fun _ _ _ h => h

theorem blanks_of_saysYes {line : String} (h : saysYes line = true) :
    ∃ blanks letter rest, line.toList = blanks ++ letter :: rest ∧
      (∀ c ∈ blanks, isBlank c = true) ∧ (letter = 'y' ∨ letter = 'Y') := by
  have hsplit := List.takeWhile_append_dropWhile (p := isBlank) (l := line.toList)
  have hblanks : ∀ c ∈ line.toList.takeWhile isBlank, isBlank c = true :=
    List.all_eq_true.mp List.all_takeWhile
  unfold saysYes trimStart at h
  split at h
  next rest heq => exact ⟨_, 'y', rest, (heq ▸ hsplit).symm, hblanks, .inl rfl⟩
  next rest heq => exact ⟨_, 'Y', rest, (heq ▸ hsplit).symm, hblanks, .inr rfl⟩
  next => cases h

/-- Who is not asked has agreed before, and who is asked has typed nothing yet. -/
theorem heeds_confirm (n : Nat)
    (hknown : ∀ past turn, known past → turn.1.IsLater → known (past ++ [turn])) :
    (o.confirm n).Heeds (o.Allows mode) (fun turns _ => linesOf turns = [] ∧ known turns)
      fun _ turns _ => known turns ∧ o.HasConsent turns := by
  have hprint : ∀ text, (Run.ask (.print text)).Heeds (o.Allows mode)
      (fun turns _ => linesOf turns = [] ∧ known turns) fun _ turns _ =>
        linesOf turns = [] ∧ known turns := by
    refine fun text => heeds_of_quiet (Run.asks_ask trivial) fun past turn h hturn => ?_
    exact ⟨(linesOf_of_isQuiet hturn).trans h.1, hknown past turn h.2 hturn.isLater⟩
  have hline : (Run.ask .readLine).Heeds (o.Allows mode)
      (fun turns _ => linesOf turns = [] ∧ known turns) fun answer turns _ =>
        linesOf turns = [answer] ∧ known turns := by
    refine Run.heeds_ask (r := .readLine) (fun _ _ _ => trivial) fun turns _ answer h => ?_
    refine ⟨?_, hknown turns _ h.2 trivial⟩
    rw [linesOf_append, h.1]
    rfl
  unfold confirm
  split
  next =>
    refine .bind (hprint _) fun _ => .bind hline fun answer => ?_
    cases answer with
    | error cause => exact Routine.Heeds.fail (RunError.noAnswer cause)
    | ok line =>
        have hsays : (if !saysYes line then Routine.fail .aborted else pure () : Run Unit).Heeds
            (o.Allows mode) (fun turns _ => linesOf turns = [.ok line] ∧ known turns)
            fun _ turns _ => known turns ∧ o.HasConsent turns := by
          refine .ite (fun _ => .fail RunError.aborted) fun hyes => .pure fun turns _ h => ?_
          have hline : saysYes line = true := by simpa using hyes
          obtain ⟨blanks, letter, rest, hchars⟩ := blanks_of_saysYes hline
          exact ⟨h.2, .inr ⟨line, [], blanks, letter, rest, h.1, hchars⟩⟩
        exact hsays
  next hyes => exact .pure fun turns _ h => ⟨h.2, .inl (by simpa using hyes)⟩

/-! ## All of a run -/

theorem heeds_permitted (hboards : ∀ b ∈ boards, b = .geographic b.slot) {work : Image → Run Unit}
    (hwork : ∀ file, Run.Asks (ToolRequest.Concerns boards) (work file)) (n : Nat) :
    Routine.Heeds (o.Allows mode)
      (fun turns _ => linesOf turns = [] ∧ ∀ b ∈ boards, o.Aims mode turns b.slot)
      (fun _ _ _ => True) (do
        let file ← o.readImage
        o.confirm n
        work file) := by
  have hread : o.readImage.Heeds (o.Allows mode)
      (fun turns _ => linesOf turns = [] ∧ ∀ b ∈ boards, o.Aims mode turns b.slot)
      fun _ turns _ => (linesOf turns = [] ∧ ∀ b ∈ boards, o.Aims mode turns b.slot) ∧
        o.HasImage turns := by
    refine heeds_readImage fun past turn h hturn => ?_
    exact ⟨(linesOf_of_isQuiet hturn).trans h.1, fun b hb => (h.2 b hb).append hturn.isLater⟩
  have hconfirm : (o.confirm n).Heeds (o.Allows mode)
      (fun turns _ => linesOf turns = [] ∧ o.HasImage turns ∧
        ∀ b ∈ boards, o.Aims mode turns b.slot)
      fun _ turns _ => (o.HasImage turns ∧ ∀ b ∈ boards, o.Aims mode turns b.slot) ∧
        o.HasConsent turns :=
    heeds_confirm n fun past turn h hturn => ⟨h.1.append, fun b hb => (h.2 b hb).append hturn⟩
  refine .bind hread fun file => ?_
  refine .bind (hconfirm.conseq (fun turns _ h => ⟨h.1.1, h.2, h.1.2⟩) fun _ _ _ h => h) fun _ => ?_
  refine (heeds_of_asks hboards (hwork file)).conseq (fun turns _ h b hb => ?_)
    fun _ _ _ _ => trivial
  exact ⟨h.1.2 b hb, fun _ => ⟨h.1.1, h.2⟩⟩

theorem heeds_perform (hboard : board = .geographic board.slot) (operation : Operation) :
    (o.perform board operation).Heeds (o.Allows (.single operation))
      (fun turns _ => linesOf turns = [] ∧ o.Aims (.single operation) turns board.slot)
      fun _ _ _ => True := by
  have hboards : ∀ b ∈ [board], b = .geographic b.slot := by simpa using hboard
  have hfits : board.Fits := hboard ▸ board.slot.fits_geographic
  have hlook : ∀ {r : Run Unit}, operation ≠ .program →
      Run.Asks (ToolRequest.Concerns [board]) r → r.Heeds (o.Allows (.single operation))
        (fun turns _ => linesOf turns = [] ∧ o.Aims (.single operation) turns board.slot)
        fun _ _ _ => True := by
    intro r hother hasks
    refine (heeds_of_asks hboards hasks).conseq (fun turns _ h => ?_) fun _ _ _ _ => trivial
    rw [List.forall_mem_singleton]
    refine ⟨h.2, ?_⟩
    rintro (habsurd | habsurd)
    · cases habsurd
    · exact absurd (Mode.single.inj habsurd) hother
  cases operation with
  | program =>
      show (o.program board).Heeds _ _ _
      rw [program_eq]
      refine (heeds_permitted hboards (asks_reprogram hfits o) 1).conseq (fun turns _ h => ?_)
        fun _ _ _ _ => trivial
      rw [List.forall_mem_singleton]
      exact h
  | save => exact hlook nofun (asks_save hfits o)
  | verify => exact hlook nofun (asks_verify hfits o)
  | id => exact hlook nofun (asks_identify hfits o)

theorem heeds_run (o : Order) (mode : Mode) :
    (o.run mode).Heeds (o.Allows mode) (fun turns _ => turns = []) fun _ _ _ => True := by
  cases mode with
  | all =>
      refine .bind (o.heeds_findBoards .all) fun registry turns s h => ?_
      obtain ⟨hlines, hlists⟩ := h
      have hfits : ∀ b ∈ registry.boards, b.Fits := fun b hb =>
        hlists.boards_eq b hb ▸ b.slot.fits_geographic
      have haims : ∀ b ∈ registry.boards, o.Aims .all turns b.slot := by
        intro b hb
        rw [Registry.mem_boards, hlists] at hb
        exact ⟨hb.2, fun _ => nofun⟩
      dsimp only
      rw [updateAll_eq]
      exact heeds_permitted hlists.boards_eq (asks_reprogramAll hfits o) registry.size turns s
        ⟨hlines, haims⟩
  | single operation =>
      rw [run_single]
      refine .bind (o.heeds_findBoards _) fun registry => .bind Run.heeds_ofExcept fun n =>
        .bind Run.heeds_ofExcept fun board turns s h => ?_
      obtain ⟨⟨⟨hlines, hlists⟩, hn⟩, hboard⟩ := h
      obtain ⟨hbase, hnames⟩ := Arguments.names_of_resolve hn hboard
      have hremain : (fun slot => ∃ base, registry.base? slot = some base) = o.Remains turns := by
        ext slot
        simp [hlists slot]
      rw [hremain] at hnames
      have hgeographic := hlists.boards_eq board (Registry.mem_boards.mpr hbase)
      exact heeds_perform hgeographic operation turns s
        ⟨hlines, ((hlists _ _).mp hbase).2, fun _ _ => hnames⟩

/-- The tool writes a register only in the window of a slot whose board it has found, that the
configuration covers and, if it works on a single board, that the address names; and to program ROMs
only after the file was read and accepted as an image, and the user agreed. -/
theorem writes_where_told {o : Order} {mode : Mode} {before after : List (Turn workstation)}
    {address value : UInt32} {result : Outcome RunError Unit × Unit}
    (h : (o.run mode ()).Plays (before ++ ⟨.engine (.write address value), ()⟩ :: after) result) :
    ∃ slot, Slot.ofAddress? address = some slot ∧ o.MayWrite mode before slot :=
  (heeds_run o mode [] () rfl).of_plays h rfl

/-- One board, in the third slot, whose registers all read as a board's identification, and a user
who agrees to have its ROM programmed with a single blank word. -/
def agreeable : Handler workstation Unit
  | .engine (.probe address), _ => (address == Slot.third.base + Register.boardId, ())
  | .engine (.read _), _ => (SimulatedBoard.boardId, ())
  | .engine (.write _ _), _ | .engine (.pause _), _ | .engine .tick, _ | .engine (.remark _), _
  | .engine (.report _), _ => ((), ())
  | .readFile _, _ => (.ok (.ofBytes (BigEndian.encode [Rom.erasedWord])), ())
  | .readLine, _ => (.ok "yes\n", ())
  | .simulate _, _ | .print _, _ => ((), ())
  | .openWindow _, _ | .writeFile _ _, _ => (.ok (), ())
  | .failedCycles, _ => (0, ())

theorem writes_where_told_thirdSlot :
    ∃ before after result,
      ((({ arguments := { file := some "rom.bin" } } : Order).run (.single .program)) ()).Plays
        (before ++ ⟨.engine (.write (Slot.third.base + Register.reset) ResetRequest.both), ()⟩ ::
          after) result ∧
      ∃ slot, Slot.ofAddress? (Slot.third.base + Register.reset) = some slot ∧
        ({ arguments := { file := some "rom.bin" } } : Order).MayWrite (.single .program) before
          slot := by
  let work := ({ arguments := { file := some "rom.bin" } } : Order).run (.single .program) ()
  have hmem : Access.write (Slot.third.base + Register.reset) ResetRequest.both ∈
      cyclesOf (engineTurns (work.turns agreeable ())) := by
    decide +kernel
  obtain ⟨before, after, hturns⟩ := List.append_of_mem (mem_of_write_mem hmem)
  have hplays := Dialogue.plays_turns agreeable work ()
  rw [hturns] at hplays
  exact ⟨before, after, _, hplays, writes_where_told hplays⟩

end Order
end Reflash.Host
