import Reflash.Proofs.Bus.Trace
import Reflash.Proofs.Registry
import Reflash.Proofs.Update.Brackets
import Reflash.Proofs.Update.Entries
import Reflash.Proofs.Update.Lockstep
/-!
# Progress of an update

What an update tells is a matter of lines and groups, whether it is of one board or of a crate. In a
phase of a crate each board tells one group or none, and its failure before the next board comes, so
that the groups of two boards never mix. A console can therefore show any of it passage by passage.
-/

namespace Reflash

namespace CrateUpdate

open BoardUpdate

variable {σ ε : Type} {budgets : Budgets} {words : Nat} {b : Board} {u : BoardUpdate}
  {job : UpdateJob Unit} {boards : List Board}

structure IsWithin (budgets : Budgets) (u : BoardUpdate) : Prop where
  fits : u.board.Fits
  budgets_eq : u.rom.budgets = budgets

theorem isWithin_of_isOf (hb : b.Fits) (h : u.rom.IsOf b budgets) : IsWithin budgets u := by
  obtain ⟨rfl, hbudgets⟩ := h
  exact ⟨hb, hbudgets⟩

theorem IsWithin.isLive (h : IsWithin budgets u) (hlive : u.failure? = none) :
    IsLive u.board budgets u := ⟨⟨rfl, h.budgets_eq⟩, hlive⟩

/-! ## Phases -/

/-- The work on the boards of a crate tells lines and groups, and does not fail. -/
def TellsGroups (budgets : Budgets) (words : Nat)
    (work : List BoardUpdate → Job Report ε (List BoardUpdate)) : Prop :=
  ∀ us report, (∀ u ∈ us, IsWithin budgets u) → (work us).Reports report
    (fun events us' _ => IsBracketed words events ∧ ∀ u ∈ us', IsWithin budgets u)
    fun _ _ _ => False

/-- A phase tells what each board tells, one behind the other, each with its failure. -/
theorem tells_phase (hjob : ∀ b : Board, b.Fits → Brackets b budgets words True job) :
    TellsGroups budgets words (phase job : _ → Job Report ε _) := by
  intro us
  induction us with
  | nil => exact fun report hus => .pure ⟨isBracketed_nil, hus⟩
  | cons u rest ih =>
      intro report hus
      obtain ⟨hu, hrest⟩ := List.forall_mem_cons.mp hus
      have hothers : ∀ {before : List Event} {u' : BoardUpdate} (report' : Report),
          IsBracketed words before → IsWithin budgets u' →
          (phase job rest >>= fun rest' => pure (u' :: rest') : Job Report ε _).Reports report'
            (fun more us' _ => IsBracketed words (before ++ more) ∧ ∀ u ∈ us', IsWithin budgets u)
            fun _ _ _ => False := by
        intro before u' report' hbefore hu'
        refine (ih report' hrest).bind ?_
        rintro events rest' - ⟨hevents, hrest'⟩
        refine .pure ⟨?_, List.forall_mem_cons.mpr ⟨hu', hrest'⟩⟩
        rw [List.append_nil]
        exact hbefore.append hevents
      rw [phase]
      split
      next => exact hothers report isBracketed_nil hu
      next hlive =>
        have hfailure : u.failure? = none := by simpa [isFailed] using hlive
        refine .on_bind (hjob u.board hu.fits u (hu.isLive hfailure)) ?_ ?_
        · rintro events ⟨⟩ u' ⟨hevents, hu', -⟩
          exact hothers report hevents (isWithin_of_isOf hu.fits hu'.rom)
        · rintro events failure u' ⟨hevents, hu'⟩
          refine .reportAll_bind failure.events (.modify_bind ?_)
          simp only [← List.append_assoc]
          exact hothers _ hevents (isWithin_of_isOf hu.fits hu')

theorem TellsGroups.bind {work work' : List BoardUpdate → Job Report ε (List BoardUpdate)}
    (h : TellsGroups budgets words work) (h' : TellsGroups budgets words work') :
    TellsGroups budgets words fun us => work us >>= work' := by
  refine fun us report hus => (h us report hus).bind ?_
  rintro events us' report' ⟨hevents, hus'⟩
  refine (h' us' report' hus').mono ?_ fun _ _ _ => False.elim
  rintro more us'' - ⟨hmore, hus''⟩
  exact ⟨hevents.append hmore, hus''⟩

theorem TellsGroups.remark {work : List BoardUpdate → Job Report ε (List BoardUpdate)} (r : Remark)
    (h : TellsGroups budgets words work) :
    TellsGroups budgets words fun us => Job.remark r >>= fun _ => work us :=
  fun us report hus => .remark_bind (h us report hus)

theorem tells_throughPhases (herase : budgets.eraseTries < UInt32.size)
    (hreboot : budgets.rebootTries < UInt32.size) (file : Image) :
    TellsGroups budgets file.wordCount (throughPhases file : _ → Job Report ε _) :=
  (tells_phase fun _ hb => (ticks_reset hb).brackets).bind <|
    (tells_phase fun _ hb => brackets_waitReady hb).bind <| .remark .erasing <|
    (tells_phase fun _ hb => (ticks_startErase hb).brackets).bind <|
    (tells_phase fun _ hb => brackets_awaitErase hb herase).bind <| .remark .programming <|
    (tells_phase fun _ hb => brackets_refill hb file).bind <| .remark .rebooting <|
    (tells_phase fun _ hb => (ticks_startReboot hb).brackets).bind <|
    tells_phase fun _ hb => brackets_awaitReboot hb hreboot

/-! ## The whole update -/

theorem reports_isCurrent (hb : b.Fits) (target : Version) (s : σ) :
    (isCurrent target b : Job σ ε Bool).Reports s (fun events _ _ => IsBracketed words events)
      fun _ _ _ => False := by
  rw [isCurrent, Board.readVersion, hb.read_eq (by decide), hb.read_eq (by decide)]
  simp only [bind_assoc, pure_bind]
  refine .ask_bind (q := .read _) trivial fun control => ?_
  refine .ask_bind (q := .read _) trivial fun processing => ?_
  split
  · exact .remark_bind (.report_bind (.pure (isBracketed_line _ _ _)))
  · exact .pure isBracketed_nil

theorem reports_enlist (words : Nat) (hfits : ∀ b ∈ boards, b.Fits) (config : UpdateConfig)
    (force : Bool) (report : Report) :
    (enlist config force boards : Job Report ε _).Reports report
      (fun events us _ => IsBracketed words events ∧ ∀ u ∈ us, IsWithin config.budgets u)
      fun _ _ _ => False := by
  induction boards generalizing report with
  | nil => exact .pure ⟨isBracketed_nil, List.forall_mem_nil _⟩
  | cons board rest ih =>
      obtain ⟨hboard, hrest⟩ := List.forall_mem_cons.mp hfits
      have hlook : (if force then pure false else isCurrent config.target board :
          Job Report ε Bool).Reports report (fun events _ _ => IsBracketed words events)
            fun _ _ _ => False := by
        split
        · exact .pure isBracketed_nil
        · exact reports_isCurrent hboard config.target report
      rw [enlist_cons]
      refine hlook.bind fun events current report' hevents => ?_
      split
      · refine .modify_bind ((ih hrest _).mono ?_ fun _ _ _ => False.elim)
        exact fun more us _ h => ⟨hevents.append h.1, h.2⟩
      · refine .modify_bind ((ih hrest _).bind ?_)
        rintro more us - ⟨hmore, hus⟩
        refine .pure ⟨?_, List.forall_mem_cons.mpr ⟨⟨hboard, rfl⟩, hus⟩⟩
        rw [List.append_nil]
        exact hevents.append hmore

section

variable {config : UpdateConfig} (herase : config.budgets.eraseTries < UInt32.size)
  (hreboot : config.budgets.rebootTries < UInt32.size)
include herase hreboot

theorem reports_fill (hfits : ∀ b ∈ boards, b.Fits) (file : Image) (force : Bool)
    (report : Report) :
    (fill boards config file force).Reports report
      (fun events _ _ => IsBracketed file.wordCount events) fun _ _ _ => False := by
  refine (reports_enlist file.wordCount hfits config force report).bind ?_
  rintro looks us report₁ ⟨hlooks, hus⟩
  have hphases : (runPhases file us : Job Report RomError Unit).Reports report₁
      (fun events _ _ => IsBracketed file.wordCount events) fun _ _ _ => False := by
    rw [runPhases_eq]
    refine .remark_bind ((tells_throughPhases herase hreboot file us report₁ hus).bind ?_)
    rintro events us' - ⟨hevents, -⟩
    rw [← List.append_nil events] at hevents
    exact .pure hevents
  refine hphases.bind fun events _ report₂ hevents => .get_bind ?_
  refine .reportAll_bind _ (.remark_bind (.pure ?_))
  rw [List.append_nil]
  refine hlooks.append (hevents.append (isBracketed_map ?_ report₂.boards))
  exact fun (slot, st) => isBracketed_line slot _ _

theorem reports_run {registry : Registry} (hregistry : registry.IsGeographic) (file : Image)
    (force : Bool) (t : σ) :
    (run registry config file force : Job σ RomError Report).Reports t
      (fun events _ _ => IsBracketed file.wordCount events)
      fun events _ _ => IsBracketed file.wordCount events := by
  rw [run]
  split
  · exact .fail isBracketed_nil
  · refine .on_bind (reports_fill herase hreboot (fun _ => hregistry.fits) file force {}) ?_ ?_
    · intro events report _ hevents
      rw [← List.append_nil events] at hevents
      exact .pure hevents
    · exact fun _ _ _ => False.elim

end

end CrateUpdate

/-! ## What is shown of it -/

/-- The passages are what the events of updates to an image of so many words tell, and what any
console shows of them. -/
structure Recounts (words : Nat) (passages : List Passage) (events : List Event) : Prop where
  events_eq : events = passages.flatMap Passage.events
  ticks_eq : ∀ g, .group g ∈ passages → g.cause? = none →
    g.step ∈ [.program, .download, .verify] → g.ticks = words
  shown_eq : ∀ prescale, (Console.printAll { prescale } events).2 =
    String.join (passages.map (Passage.text prescale))
  /-- What is shown before any passage, and in the end, has its last line ended. -/
  endsLine : ∀ prescale before after, passages = before ++ after →
    EndsLine (Console.printAll { prescale } (before.flatMap Passage.events)).2

theorem IsBracketed.exists_recounts {words : Nat} {events : List Event}
    (h : IsBracketed words events) : ∃ passages, Recounts words passages events := by
  obtain ⟨passages, rfl, hproper⟩ := h
  have hshown : ∀ prescale, ∀ some ⊆ passages,
      (Console.printAll { prescale } (some.flatMap Passage.events)).2 =
        String.join (some.map (Passage.text prescale)) := by
    intro prescale some hsome
    obtain ⟨c', hprints, -⟩ := Console.prints_passages (c := { prescale }) ⟨rfl, rfl⟩ some
      fun g hg => (hproper g (hsome hg)).ticks_lt
    exact congrArg Prod.snd hprints
  refine ⟨passages, rfl, fun g hg => (hproper g hg).ticks_eq, ?_, ?_⟩
  · exact fun prescale => hshown prescale passages (List.Subset.refl passages)
  · rintro prescale before after rfl
    rw [hshown prescale before (List.subset_append_left before after)]
    exact endsLine_passages prescale before

theorem Routine.Reports.exists_recounts {σ ε α ω : Type} [Bus ω] {words : Nat} {r : Job σ ε α}
    {s : σ} (h : r.Reports s (fun events _ _ => IsBracketed words events)
      fun events _ _ => IsBracketed words events) (w : ω) :
    ∃ passages, Recounts words passages (eventsOf ((r s).turns Bus.handler w)) := by
  have hends := h _ _ _ (Dialogue.plays_turns Bus.handler (r s) w)
  apply IsBracketed.exists_recounts
  split at hends
  · exact hends
  · exact hends
  · exact hends.elim

/-- Whatever is on the bus, the progress of an update is told in lines on their own and in groups,
one behind the other, and a console shows each of them as it is. This holds of the update of a crate
with its boards at their geographic addresses, and of the update of any one such board, whether or
not they succeed. A budget is a number of 32 bits, as is the console's counter of ticks. -/
theorem exists_recounts_of_updates {σ ω : Type} [Bus ω] {registry : Registry}
    (hregistry : registry.IsGeographic) {config : UpdateConfig}
    (herase : config.budgets.eraseTries < UInt32.size)
    (hreboot : config.budgets.rebootTries < UInt32.size) (file : Image) (force : Bool) (t : σ)
    (slot : Slot) (w : ω) :
    let crate : Job σ RomError Report := CrateUpdate.run registry config file force
    let fresh := BoardUpdate.new (.geographic slot) config.budgets config.timing
    (∃ passages, Recounts file.wordCount passages (eventsOf ((crate t).turns Bus.handler w))) ∧
      ∃ passages, Recounts file.wordCount passages
        (eventsOf ((BoardUpdate.run file fresh).turns Bus.handler w)) := by
  intro crate fresh
  constructor
  · exact (CrateUpdate.reports_run herase hreboot hregistry file force t).exists_recounts w
  · have hfresh : BoardUpdate.IsLive (.geographic slot) config.budgets fresh := ⟨⟨rfl, rfl⟩, rfl⟩
    have halone := BoardUpdate.reports_run slot.fits_geographic herase hreboot file hfresh
    exact halone.exists_recounts w

/-- An erase that takes three more polls, and an image of two words: what a console shows that has a
plus sign for every tick. The update of the crate adds the line of the board. -/
theorem exists_recounts_of_updates_late :
    let registry := Registry.empty.insert .third Slot.third.base
    let config : UpdateConfig := { target := ⟨3, 4⟩ }
    let file := Image.ofWords [2, 2]
    let bus : LateBus := { left := 20, early := 3, late := 2 }
    let crate : Job Unit RomError Report := CrateUpdate.run registry config file false
    let fresh := BoardUpdate.new (.geographic .third) config.budgets config.timing
    let told := eventsOf ((crate ()).turns Bus.handler bus)
    let toldAlone := eventsOf ((BoardUpdate.run file fresh).turns Bus.handler bus)
    let shown := "slot  3: init  done\nslot  3: erase +++ done\nslot  3: program ++ done\n" ++
      "slot  3: download ++ done\nslot  3: verify ++ done\nslot  3: reboot  done\n"
    registry.IsGeographic ∧ config.budgets.eraseTries < UInt32.size ∧
      config.budgets.rebootTries < UInt32.size ∧
      (∃ passages, Recounts 2 passages told ∧
        String.join (passages.map (Passage.text fun _ => 1)) = shown ++ "slot  3: passed\n") ∧
      ∃ passages, Recounts 2 passages toldAlone ∧
        String.join (passages.map (Passage.text fun _ => 1)) = shown := by
  intro registry config file bus crate fresh told toldAlone shown
  have hregistry : registry.IsGeographic := by decide
  have herase : config.budgets.eraseTries < UInt32.size := by decide
  have hreboot : config.budgets.rebootTries < UInt32.size := by decide
  have hshown : (Console.printAll { prescale := fun _ => 1 } told).2 =
      shown ++ "slot  3: passed\n" := by
    decide +kernel
  have halone : (Console.printAll { prescale := fun _ => 1 } toldAlone).2 = shown := by
    decide +kernel
  rcases exists_recounts_of_updates hregistry herase hreboot file false () .third bus with
    ⟨⟨passages, hcrate⟩, passages', hboard⟩
  refine ⟨hregistry, herase, hreboot, ⟨passages, hcrate, ?_⟩, passages', hboard, ?_⟩
  · rw [← hcrate.shown_eq]
    exact hshown
  · rw [← hboard.shown_eq]
    exact halone

end Reflash
