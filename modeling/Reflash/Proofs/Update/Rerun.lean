import Reflash.Proofs.Simulation.Diagnosis
import Reflash.Proofs.Simulation.Oversized
import Reflash.Proofs.Update.Entries
/-!
# Updating again

A board that has been rebooted into the target firmware answers with the version of it, so the next
update leaves it alone. Updating a crate again after a success is therefore two reads for each
board, and changes none.
-/

namespace Reflash

namespace Version

theorem toNat_combined (v : Version) :
    v.combined.toNat = v.control.toNat * 65536 + v.processing.toNat := by
  have hcontrol := v.control.toNat_lt
  have hprocessing := v.processing.toNat_lt
  have hshift : (16 : UInt32).toNat % 32 = 16 := rfl
  have hhigh : v.control.toNat <<< 16 = v.control.toNat * 65536 := Nat.shiftLeft_eq ..
  simp only [combined, UInt32.toNat_or, UInt32.toNat_shiftLeft, UInt16.toNat_toUInt32, hshift]
  rw [Nat.mod_eq_of_lt (by omega), ← Nat.shiftLeft_add_eq_or_of_lt hprocessing, hhigh]

theorem combined_inj {v v' : Version} : v.combined = v'.combined ↔ v = v' := by
  constructor
  · intro h
    obtain ⟨control, processing⟩ := v
    obtain ⟨control', processing'⟩ := v'
    have hword := congrArg UInt32.toNat h
    simp only [toNat_combined] at hword
    have hprocessing := processing.toNat_lt
    have hprocessing' := processing'.toNat_lt
    congr
    · apply UInt16.toNat_inj.mp
      omega
    · apply UInt16.toNat_inj.mp
      omega
  · exact congrArg combined

end Version

namespace SimulatedBoard

variable {b : SimulatedBoard} {v : Version}

def Runs (b : SimulatedBoard) (v : Version) : Prop := b.rebooting = 0 ∧ b.version = v

instance (b : SimulatedBoard) (v : Version) : Decidable (b.Runs v) :=
  inferInstanceAs (Decidable (_ ∧ _))

def readTwice (b : SimulatedBoard) : SimulatedBoard :=
  { b with activity.reads := b.activity.reads + 2 }

theorem Runs.readTwice (h : b.Runs v) : b.readTwice.Runs v := h

theorem Runs.versionReads_eq (h : b.Runs v) : b.versionReads = (v, b.readTwice) := by
  obtain ⟨hback, rfl⟩ := h
  apply Prod.ext
  · exact CrateUpdate.versionReads_of_back hback
  · have hcount : b.rebooting - 1 - 1 = b.rebooting := by omega
    rw [versionReads, read_controlVersion]
    dsimp only
    rw [read_processingVersion]
    dsimp only
    rw [hcount]
    rfl

end SimulatedBoard

/-! ## After an update of one board -/

namespace BoardUpdate

variable {u : BoardUpdate} {slot : Slot} {b : SimulatedBoard} {file : Image}

/-- A whole update that succeeds leaves the board on the bus, rebooted. -/
theorem runs_of_run_ok (hu : u.board = .geographic slot) (hphase : u.phase = .init)
    (hok : ((run file u).run Bus.handler b).1.1 = .ok ()) :
    ((run file u).run Bus.handler b).2.Runs (b.rebootVersion.getD b.version) := by
  have hfits := slot.fits_geographic
  have hfirmware := (keeps_prepare hfits file u hu).run_preserves
    (fun x : SimulatedBoard => x.firmware = b.firmware)
    (fun r x hr hx => (SimulatedBoard.firmware_handler hr x).trans hx) (s := b) rfl
  have hends := Routine.ends_run (prepare file) u b
  rw [run_run, runSteps_eq, Routine.run_bind] at hok ⊢
  generalize (prepare file u).run Bus.handler b = prepared at hok hfirmware hends ⊢
  obtain ⟨⟨out, u₁⟩, b₁⟩ := prepared
  cases out with
  | ok =>
      obtain ⟨hu₁, ⟨-, hverified⟩ | ⟨_, -, _, habsurd, -⟩⟩ :=
        leads_prepare hfits (fun step _ => step.mem_all) file hu hphase hends
      · have hrestart := meets_restart (b := b₁) hu₁ hverified
        dsimp only at hok ⊢
        cases hfailure : b₁.rebootFailure? u₁.slot u₁.rom.budgets with
        | none =>
            obtain ⟨u', b', hrun, -, hb'⟩ := hrestart.yields hfailure (.refl u₁) (.refl b₁)
            have hback : b'.rebooting = 0 := (congrArg SimulatedBoard.rebooting hb'.outline_eq :)
            have hversion : b'.version = b₁.rebootVersion.getD b₁.version :=
              (congrArg SimulatedBoard.version hb'.outline_eq :)
            have hnow : b₁.version = b.version := congrArg Prod.fst hfirmware
            have hnext : b₁.rebootVersion = b.rebootVersion :=
              congrArg (fun firmware => firmware.2.1) hfirmware
            rw [hrun]
            rw [hnow, hnext] at hversion
            exact ⟨hback, hversion⟩
        | some failure =>
            obtain ⟨_, _, hfails⟩ := hrestart.fails failure hfailure
            obtain ⟨_, _, hrun, -⟩ := hfails (.refl u₁) (.refl b₁)
            rw [hrun] at hok
            cases hok
      · cases habsurd
  | failed => cases hok
  | offBus => cases hok

end BoardUpdate

/-! ## A crate that is up to date -/

def Slot.versionCycles (slot : Slot) (v : Version) : List Access :=
  [.read (slot.base + Register.controlVersion) v.control.toUInt32,
    .read (slot.base + Register.processingVersion) v.processing.toUInt32]

def SimulatedCrate.UpToDate (c : SimulatedCrate) (slots : List Slot) (v : Version) : Prop :=
  ∀ slot ∈ slots, ∃ b, c.board? slot = some b ∧ b.Runs v

namespace CrateUpdate

variable {σ ε : Type} {t : σ} {c c' : SimulatedCrate} {report : Report} {slot : Slot}
  {slots : List Slot} {b : SimulatedBoard} {v : Version} {config : UpdateConfig}

theorem makes_readVersion (hb : c.board? slot = some b) (hruns : b.Runs v) :
    ((Board.geographic slot).readVersion : Job σ ε Version).Makes t c (slot.versionCycles v)
      (.ok v) t (c.insert slot b.readTwice) := by
  have hfits := slot.fits_geographic
  constructor
  · rw [run_readVersion hb, hruns.versionReads_eq]
  · rw [Board.readVersion, hfits.read_eq (by decide), hfits.read_eq (by decide)]
    obtain ⟨hback, rfl⟩ := hruns
    have hread : ∀ {c : SimulatedCrate} {b : SimulatedBoard} {offset : UInt32},
        offset ≤ Register.engineStatus → c.board? slot = some b →
        Bus.read c ((Board.geographic slot).base + offset) =
          ((b.read offset).1, c.insert slot (b.read offset).2) := by
      intro c b offset hle hb
      have hwindow : (Request.read ((Board.geographic slot).base + offset)).InWindow slot :=
        slot.ofAddress?_register hle
      have hhandler := SimulatedCrate.handler_of_inWindow hwindow hb
      have hoffset : Bus.read b ((Board.geographic slot).base + offset) = b.read offset :=
        congrArg b.read (SimulatedCrate.offset_register slot hle)
      rw [← hoffset]
      exact hhandler
    show [Access.read _ (Bus.read c _).1, Access.read _ (Bus.read (Bus.read c _).2 _).1] = _
    rw [hread (by decide) hb, hread (by decide) (SimulatedCrate.board?_insert_self ..),
      SimulatedBoard.read_controlVersion, SimulatedBoard.read_processingVersion]
    dsimp only
    rw [if_pos hback, if_pos (by omega)]
    rfl

theorem makes_isCurrent (hb : c.board? slot = some b) (hruns : b.Runs v) :
    (isCurrent v (.geographic slot) : Job σ ε Bool).Makes t c (slot.versionCycles v) (.ok true) t
      (c.insert slot b.readTwice) := by
  rw [isCurrent]
  refine (makes_readVersion hb hruns).bind_silent ?_
  rw [if_pos rfl]
  apply (Routine.makes_remark _).silent_bind
  apply (Routine.makes_lift (Exchange.isSilent_report _)).silent_bind
  exact Routine.makes_pure true

/-- All boards of a crate that is up to date are left alone. -/
theorem makes_enlist (hnodup : slots.Nodup) (hboards : c.UpToDate slots config.target)
    (report : Report) :
    ∃ c',
      (enlist config false (slots.map Board.geographic) : Job Report ε _).Makes report c
        (slots.flatMap (·.versionCycles config.target)) (.ok [])
        ⟨report.boards ++ slots.map (·, .current)⟩ c' ∧
      ∀ slot, c'.board? slot =
        if slot ∈ slots then (c.board? slot).map SimulatedBoard.readTwice else c.board? slot := by
  induction slots generalizing c report with
  | nil =>
      refine ⟨c, ?_, fun slot => (if_neg List.not_mem_nil).symm⟩
      rw [List.map_nil, List.map_nil, List.append_nil]
      exact Routine.makes_pure []
  | cons slot rest ih =>
      obtain ⟨hfresh, hnodup'⟩ := List.nodup_cons.mp hnodup
      obtain ⟨b, hb, hruns⟩ := hboards slot List.mem_cons_self
      have hkept : ∀ other, other ≠ slot →
          (c.insert slot b.readTwice).board? other = c.board? other :=
        fun other hne => SimulatedCrate.board?_insert_of_ne c _ hne
      have hrest : (c.insert slot b.readTwice).UpToDate rest config.target := by
        intro other hother
        rw [hkept other fun heq => hfresh (heq ▸ hother)]
        exact hboards other (List.mem_cons_of_mem slot hother)
      obtain ⟨c', hmakes, hboards'⟩ := ih hnodup' hrest (report.add slot .current)
      refine ⟨c', ?_, fun other => ?_⟩
      · rw [List.map_cons, enlist, if_neg Bool.false_ne_true]
        refine (makes_isCurrent hb hruns).bind ?_
        dsimp only
        rw [if_pos rfl]
        refine (Routine.makes_modify _).silent_bind ?_
        rw [List.map_cons, List.append_cons]
        exact hmakes
      · rw [hboards']
        by_cases hother : other = slot
        · subst hother
          rw [if_neg hfresh, if_pos List.mem_cons_self, SimulatedCrate.board?_insert_self, hb]
          rfl
        · simp only [hkept other hother, List.mem_cons, hother, false_or]

theorem makes_fill (file : Image) (hnodup : slots.Nodup)
    (hboards : c.UpToDate slots config.target) :
    ∃ c',
      (fill (slots.map Board.geographic) config file false).Makes {} c
        (slots.flatMap (·.versionCycles config.target)) (.ok ⟨slots.map (·, .current)⟩)
        ⟨slots.map (·, .current)⟩ c' ∧
      ∀ slot, c'.board? slot =
        if slot ∈ slots then (c.board? slot).map SimulatedBoard.readTwice else c.board? slot := by
  obtain ⟨c', henlist, hboards'⟩ := makes_enlist (ε := RomError) hnodup hboards {}
  refine ⟨c', ?_, hboards'⟩
  rw [fill]
  refine henlist.bind_silent ?_
  have hphases : (runPhases file [] : Job Report RomError Unit).Makes
      ⟨slots.map (·, .current)⟩ c' [] (.ok ()) ⟨slots.map (·, .current)⟩ c' := ⟨rfl, rfl⟩
  refine hphases.silent_bind (Routine.makes_get.silent_bind ?_)
  refine (Routine.makes_lift (Exchange.isSilent_reportAll _)).silent_bind ?_
  exact (Routine.makes_remark _).silent_bind (Routine.makes_pure _)

/-- An update of a crate that is up to date reads two registers of each board. -/
theorem makes_run {registry : Registry} {file : Image} (hfile : file.isLoaded = true)
    (hregistry : registry.boards = registry.slots.map Board.geographic)
    (hboards : c.UpToDate registry.slots config.target) :
    ∃ c',
      (run registry config file false : Job σ RomError Report).Makes t c
        (registry.slots.flatMap (·.versionCycles config.target))
        (.ok ⟨registry.slots.map (·, .current)⟩) t c' ∧
      ∀ slot, c'.board? slot =
        if slot ∈ registry.slots then (c.board? slot).map SimulatedBoard.readTwice
        else c.board? slot := by
  obtain ⟨c', hfill, hboards'⟩ := makes_fill file registry.nodup_slots hboards
  refine ⟨c', ?_, hboards'⟩
  rw [run, hfile, if_neg (by simp), hregistry]
  exact hfill.on.bind_silent (Routine.makes_pure _)

/-- The crate after updates to some images, one after the other and none of them forced. -/
def afterUpdates (registry : Registry) (config : UpdateConfig) (files : List Image)
    (c : SimulatedCrate) : SimulatedCrate :=
  files.foldl (fun c file => (((run registry config file false : Job Unit RomError Report) ()).run
    Bus.handler c).2) c

theorem upToDate_afterUpdates {registry : Registry} {files : List Image}
    (hfiles : ∀ file ∈ files, file.isLoaded = true)
    (hregistry : registry.boards = registry.slots.map Board.geographic)
    (hboards : c.UpToDate registry.slots config.target) :
    (afterUpdates registry config files c).UpToDate registry.slots config.target := by
  induction files generalizing c with
  | nil => exact hboards
  | cons file rest ih =>
      obtain ⟨hfile, hrest⟩ := List.forall_mem_cons.mp hfiles
      obtain ⟨c', hrun, hboards'⟩ := makes_run (t := ()) hfile hregistry hboards
      apply ih hrest
      dsimp only
      rw [hrun.run_eq]
      intro slot hslot
      obtain ⟨b, hb, hruns⟩ := hboards slot hslot
      refine ⟨b.readTwice, ?_, hruns.readTwice⟩
      rw [hboards', if_pos hslot, hb, Option.map_some]

/-! ## After an update of the crate -/

theorem firmware_lookedAt (force : Bool) (b : SimulatedBoard) :
    (lookedAt force b).firmware = b.firmware := by
  unfold lookedAt
  split
  · rfl
  · exact (SimulatedBoard.firmware_read ..).trans (SimulatedBoard.firmware_read ..)

/-- What comes of a board that is registered, and of its entry in the report. -/
def Enters (config : UpdateConfig) (file : Image) (force : Bool) (slot : Slot) (b : SimulatedBoard)
    (board? : Option SimulatedBoard) (status? : Option BoardStatus) : Prop :=
  if leavesAlone config force b then board? = some (lookedAt force b) ∧ status? = some .current
  else
    let job := BoardUpdate.run file (.new (.geographic slot) config.budgets config.timing)
    let alone := job.run Bus.handler (lookedAt force b)
    board? = some alone.2 ∧ status? = some (BoardStatus.updating.after alone.1.1)

theorem exists_report {registry : Registry} (config : UpdateConfig) {file : Image}
    (hfile : file.isLoaded = true) (force : Bool)
    (hregistry : registry.boards = registry.slots.map Board.geographic)
    (hboards : ∀ slot ∈ registry.slots, (c.board? slot).isSome = true) (t : σ) :
    ∃ report c',
      ((run registry config file force : Job σ RomError Report) t).run Bus.handler c =
        ((.ok report, t), c') ∧
      report.slots = registry.slots ∧
      ∀ slot ∈ registry.slots, ∀ b, c.board? slot = some b →
        Enters config file force slot b (c'.board? slot) (report.status? slot) := by
  obtain ⟨c', report, hfill, -, hslots⟩ :=
    run_fill config file force registry.nodup_slots hboards
  rw [← hregistry] at hfill
  have hrun := run_eq_of_fill (t := t) hfile hfill
  have hgives := (gives_run registry config file force t trivial).run Bus.handler c
  rw [hrun] at hgives
  exact ⟨report, c', hrun, hgives report rfl, hslots⟩

/-- A crate is searched and updated. Its registry has the boards that are not away. -/
theorem exists_run (c : SimulatedCrate) (config : UpdateConfig) {file : Image}
    (hfile : file.isLoaded = true) (force : Bool) :
    ∃ registry c₁ report c₂,
      ((Registry.discover Register.boardId isFlashAdc : Job Unit RomError Registry) ()).run
          Bus.handler c = ((.ok registry, ()), c₁) ∧
      ((run registry config file force : Job Unit RomError Report) ()).run Bus.handler c₁ =
          ((.ok report, ()), c₂) ∧
      registry.boards = registry.slots.map Board.geographic ∧ report.slots = registry.slots ∧
      ∀ slot ∈ registry.slots, ∃ b, c.board? slot = some b ∧ b.rebooting = 0 ∧
        Enters config file force slot { b with activity.reads := b.activity.reads + 1 }
          (c₂.board? slot) (report.status? slot) := by
  have hid : Register.boardId ≤ Register.engineStatus := by decide
  obtain ⟨registry, c₁, hdiscover, hfound, hprobed⟩ :=
    Registry.run_discover_eq (σ := Unit) (ε := RomError) hid isFlashAdc () c
  have hregistry := boards_eq_of_isIn (Registry.isIn_of_found (r := registry) hfound fun slot => by
    rw [hprobed, Option.isSome_map])
  have hback : ∀ slot ∈ registry.slots, ∃ b, c.board? slot = some b ∧ b.rebooting = 0 ∧
      c₁.board? slot = some { b with activity.reads := b.activity.reads + 1 } := by
    intro slot hslot
    obtain ⟨b, hb, hback⟩ := SimulatedCrate.exists_of_isFound_boardId
      ((Registry.mem_slots_iff_isFound hfound).mp hslot)
    refine ⟨b, hb, hback, ?_⟩
    rw [hprobed, hb, Option.map_some, SimulatedBoard.probed, if_pos hback, b.read_boardId]
  have hboards : ∀ slot ∈ registry.slots, (c₁.board? slot).isSome = true := by
    intro slot hslot
    obtain ⟨b, -, -, hb₁⟩ := hback slot hslot
    rw [hb₁, Option.isSome_some]
  obtain ⟨report, c₂, hrun, hslots, henters⟩ :=
    exists_report config hfile force hregistry hboards ()
  refine ⟨registry, c₁, report, c₂, hdiscover, hrun, hregistry, hslots, fun slot hslot => ?_⟩
  obtain ⟨b, hb, hback, hb₁⟩ := hback slot hslot
  exact ⟨b, hb, hback, henters slot hslot _ hb₁⟩

theorem leavesAlone_iff (h : b.rebooting = 0) {force : Bool} :
    leavesAlone config force b = true ↔ force = false ∧ b.version = config.target := by
  rw [leavesAlone, Bool.and_eq_true, beq_iff_eq, Version.combined_inj, versionReads_of_back h,
    Bool.not_eq_true']

theorem lookedAt_of_back (h : b.rebooting = 0) : lookedAt false b = b.readTwice := by
  have hruns : b.Runs b.version := ⟨h, rfl⟩
  rw [lookedAt, if_neg Bool.false_ne_true, hruns.versionReads_eq]

/-- A board that is skipped or that passes runs the target firmware, if that is what it reboots
into. -/
theorem Enters.runs {file : Image} {force : Bool} {board? : Option SimulatedBoard}
    {status? : Option BoardStatus} (h : Enters config file force slot b board? status?)
    (hback : b.rebooting = 0) (hok : ∀ st, status? = some st → st.isFailed = false)
    (hreboot : ∀ st, status? = some st → st.skip = false →
      b.rebootVersion = some config.target) :
    ∃ b', board? = some b' ∧ b'.Runs config.target := by
  unfold Enters at h
  by_cases hleaves : leavesAlone config force b = true
  · rw [if_pos hleaves] at h
    refine ⟨_, h.1, ?_⟩
    obtain ⟨rfl, hversion⟩ := (leavesAlone_iff hback).mp hleaves
    have hruns : b.Runs config.target := ⟨hback, hversion⟩
    rw [lookedAt_of_back hback]
    exact hruns.readTwice
  · rw [if_neg hleaves] at h
    dsimp only at h
    generalize hu : BoardUpdate.new (.geographic slot) config.budgets config.timing = u at h
    have hboard : u.board = .geographic slot := by rw [← hu]; rfl
    have hphase : u.phase = .init := by rw [← hu]; rfl
    have hnext : (lookedAt force b).rebootVersion = b.rebootVersion :=
      congrArg (fun firmware => firmware.2.1) (firmware_lookedAt force b)
    refine ⟨_, h.1, ?_⟩
    obtain ⟨hskip, ⟨hdone, -, -⟩ | ⟨failure, -, hnot, -⟩⟩ :=
      updating_after_run file hboard hphase (lookedAt force b)
    · have hruns := BoardUpdate.runs_of_run_ok hboard hphase hdone
      rw [hnext, hreboot _ h.2 hskip] at hruns
      exact hruns
    · have hfailed := hok _ h.2
      rw [BoardStatus.isFailed, hskip, hnot] at hfailed
      cases hfailed

theorem Enters.not_isFailed {file : Image} {words : List UInt32} {force : Bool}
    {board? : Option SimulatedBoard} {status? : Option BoardStatus}
    (h : Enters config file force slot b board? status?) (hback : b.rebooting = 0)
    (hbusy : b.busy = 0) (hhung : b.hung = false) (hfile : file.contents? = some words)
    (hupdatable : b.Updatable config.budgets words.length)
    (hsize : file.sizeBytes ≤ Rom.maxImageBytes)
    (herase : config.budgets.eraseTries ≤ SimulatedBoard.forever)
    (hreboot : config.budgets.rebootTries ≤ SimulatedBoard.forever) :
    ∀ st, status? = some st → st.isFailed = false := by
  intro st hst
  unfold Enters at h
  by_cases hleaves : leavesAlone config force b = true
  · rw [if_pos hleaves] at h
    obtain rfl := Option.some.inj (hst.symm.trans h.2)
    rfl
  · rw [if_neg hleaves] at h
    have hlooked : Alike (lookedAt force b) b := by
      cases force with
      | true => exact .refl b
      | false =>
          rw [lookedAt_of_back hback]
          rfl
    have hpasses : ((BoardUpdate.run file (.new (.geographic slot) config.budgets
        config.timing)).run Bus.handler (lookedAt force b)).1.1 = .ok () :=
      BoardUpdate.run_ok_of_updatable hbusy hhung hfile hsize herase hreboot hlooked hupdatable
    dsimp only at h
    rw [hpasses] at h
    obtain rfl := Option.some.inj (hst.symm.trans h.2)
    rfl

theorem passedMask_current (slots : List Slot) :
    Report.passedMask ⟨slots.map (·, .current)⟩ = 0 := by
  rw [Report.passedMask, List.foldl_map]
  induction slots with
  | nil => rfl
  | cons slot rest ih => exact ih

theorem allOk_current (slots : List Slot) : Report.allOk ⟨slots.map (·, .current)⟩ = true := by
  have hfailed : Report.failed ⟨slots.map (·, .current)⟩ = 0 := by
    rw [Report.failed, List.countP_map, List.countP_eq_zero]
    exact fun _ _ => Bool.false_ne_true
  rw [Report.allOk, hfailed]
  rfl

/-- Updating a crate again after a success. If every board passed or was skipped, and those that
were not skipped reboot into the target firmware, then every later update skips every board,
whatever images there are: two reads of each board are all that happens on the bus, and nothing but
the count of reads changes. -/
theorem run_again (c : SimulatedCrate) (config : UpdateConfig) (first : Image)
    (hfirst : first.isLoaded = true) (force : Bool) :
    ∃ registry c₁ report c₂,
      ((Registry.discover Register.boardId isFlashAdc : Job Unit RomError Registry) ()).run
          Bus.handler c = ((.ok registry, ()), c₁) ∧
      ((run registry config first force : Job Unit RomError Report) ()).run Bus.handler c₁ =
          ((.ok report, ()), c₂) ∧
      (report.allOk = true →
        (∀ slot st b, report.status? slot = some st → st.skip = false → c.board? slot = some b →
          b.rebootVersion = some config.target) →
        ∀ earlier : List Image, (∀ file ∈ earlier, file.isLoaded = true) →
        ∀ file : Image, file.isLoaded = true →
          let c₃ := afterUpdates registry config earlier c₂
          ∃ report' c₄,
            (run registry config file false : Job Unit RomError Report).Makes () c₃
              (registry.slots.flatMap (·.versionCycles config.target)) (.ok report') () c₄ ∧
            report'.boards = registry.slots.map (·, .current) ∧ report'.passedMask = 0 ∧
            report'.allOk = true ∧
            ∀ slot, c₄.board? slot =
              if slot ∈ registry.slots then (c₃.board? slot).map SimulatedBoard.readTwice
              else c₃.board? slot) := by
  obtain ⟨registry, c₁, report, c₂, hdiscover, hrun, hregistry, -, henters⟩ :=
    exists_run c config hfirst force
  refine ⟨registry, c₁, report, c₂, hdiscover, hrun, ?_⟩
  intro hok hreboot earlier hearlier file hfile c₃
  have hcurrent : c₂.UpToDate registry.slots config.target := by
    intro slot hslot
    obtain ⟨b, hb, hback, henters'⟩ := henters slot hslot
    apply henters'.runs hback
    · exact fun st hst => report.not_isFailed_of_allOk hok (Report.mem_boards_of_status? hst)
    · exact fun st hst hskip => hreboot slot st b hst hskip hb
  obtain ⟨c₄, hmakes, hboards'⟩ := makes_run (σ := Unit) (t := ()) hfile hregistry
    (upToDate_afterUpdates hearlier hregistry hcurrent)
  exact ⟨_, c₄, hmakes, rfl, passedMask_current _, allOk_current _, hboards'⟩

/-- A crate with one board is updated to a word. Updating it to another word has no effect then, and
updating it to a third one is two reads that show the target firmware. -/
theorem run_again_stale :
    let board : SimulatedBoard := { version := ⟨1, 2⟩, rebootVersion := some ⟨3, 4⟩ }
    let config : UpdateConfig := { target := ⟨3, 4⟩ }
    ∃ (registry : Registry) (c₁ : SimulatedCrate) (report : Report) (c₂ : SimulatedCrate),
      ((Registry.discover Register.boardId isFlashAdc : Job Unit RomError Registry) ()).run
          Bus.handler (SimulatedCrate.sole .first board) = ((.ok registry, ()), c₁) ∧
      ((run registry config (.ofWords [7]) false : Job Unit RomError Report) ()).run
          Bus.handler c₁ = ((.ok report, ()), c₂) ∧
      registry.slots = [.first] ∧ report.allOk = true ∧
      let c₃ := afterUpdates registry config [.ofWords [8]] c₂
      ∃ report' c₄,
        (run registry config (.ofWords [9]) false : Job Unit RomError Report).Makes () c₃
            [.read (Slot.first.base + Register.controlVersion) 3,
              .read (Slot.first.base + Register.processingVersion) 4] (.ok report') () c₄ ∧
          report'.boards = [(.first, .current)] ∧ report'.passedMask = 0 ∧
          report'.allOk = true ∧
          c₄.board? .first = (c₃.board? .first).map SimulatedBoard.readTwice := by
  intro board config
  have hsole : ∀ {slot b}, (SimulatedCrate.sole .first board).board? slot = some b → b = board := by
    intro slot b hb
    by_cases hslot : slot = .first
    · subst hslot
      exact Option.some.inj (hb.symm.trans (SimulatedCrate.board?_insert_self ..))
    · have hnone := (SimulatedCrate.board?_insert_of_ne {} board hslot).symm.trans hb
      simp [SimulatedCrate.board?] at hnone
  have hloaded : ∀ word, (Image.ofWords [word]).isLoaded = true := fun _ => rfl
  have hfile : (Image.ofWords [7]).contents? = some [7] := rfl
  have hupdatable : board.Updatable {} 1 := SimulatedBoard.updatable_of_faultless rfl rfl 1
  obtain ⟨registry, c₁, report, c₂, hdiscover, hrun, hagain⟩ :=
    run_again (SimulatedCrate.sole .first board) config (.ofWords [7]) rfl false
  obtain ⟨registry', c₁', report', c₂', hdiscover', hrun', -, hslots, henters⟩ :=
    exists_run (SimulatedCrate.sole .first board) config (hloaded 7) false
  obtain ⟨rfl, rfl⟩ : registry' = registry ∧ c₁' = c₁ := by
    simpa using hdiscover'.symm.trans hdiscover
  obtain ⟨rfl, rfl⟩ : report' = report ∧ c₂' = c₂ := by
    simpa using hrun'.symm.trans hrun
  have hid : Register.boardId ≤ Register.engineStatus := by decide
  have hfirst : registry'.slots = [.first] := by
    rw [Registry.slots_of_found (Registry.found_of_run_discover hid hdiscover).1]
    decide
  have hok : report'.allOk = true := by
    apply Report.allOk_of_status?
    · rw [hslots]
      exact registry'.nodup_slots
    · intro slot st hst
      have hslot := Report.mem_slots_of_status? hst
      rw [hslots] at hslot
      obtain ⟨b, hb, hback, henters'⟩ := henters slot hslot
      obtain rfl := hsole hb
      exact henters'.not_isFailed rfl rfl rfl hfile { hupdatable with } (by decide) (by decide)
        (by decide) st hst
  have hreboot : ∀ slot st b, report'.status? slot = some st → st.skip = false →
      (SimulatedCrate.sole .first board).board? slot = some b →
        b.rebootVersion = some config.target := by
    intro slot st b _ _ hb
    rw [hsole hb]
  obtain ⟨report₂, c₄, hmakes, hboards, hmask, hok', hkept⟩ := hagain hok hreboot [.ofWords [8]]
    (by simpa using hloaded 8) (.ofWords [9]) (hloaded 9)
  rw [hfirst] at hmakes hboards
  refine ⟨registry', c₁', report', c₂', hdiscover, hrun, hfirst, hok, report₂, c₄, hmakes, hboards,
    hmask, hok', ?_⟩
  rw [hkept, hfirst, if_pos (List.mem_singleton_self _)]

end CrateUpdate
end Reflash
