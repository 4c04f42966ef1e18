import Reflash.Proofs.Update.CrateConduct
/-!
# Shares of a crate's update

The update of a crate, told board by board, whatever drives the bus. First every board is looked at.
Then each phase consists of shares, one for each update that has not failed before it, in the order
of the updates. The bus cycles of the whole are those of the looks and the shares one behind the
other. Each of them takes the report from where the one before it left it, and the last one leaves
the report of the whole.
-/

namespace Reflash

/-- What one board does in one phase: its update before and after that, the bus cycles in between,
and the failure if that is how it ended. The crate's report was `held` before it and `left` after
it. -/
structure Share where
  before : BoardUpdate
  cycles : List Access
  failure? : Option StepFailure
  after : BoardUpdate
  board_eq : after.board = before.board
  held : Report
  left : Report

namespace Share

def board (x : Share) : Board := x.before.board

def slot (x : Share) : Slot := x.before.slot

def out (x : Share) : Outcome StepFailure Unit :=
  match x.failure? with
  | none => .ok ()
  | some failure => .failed failure

def isDone (x : Share) : Bool := x.failure?.isNone

def reports (x : Share) : Report × Report := (x.held, x.left)

theorem out_eq_ok {x : Share} (h : x.failure? = none) : x.out = .ok () := by
  rw [out, h]

end Share

/-- What the look at a board brought: the words in its two version registers, unless they were not
to be read. The crate's report was `held` before it and `left` after it. -/
structure Look where
  board : Board
  versions? : Option (UInt32 × UInt32)
  held : Report
  left : Report

namespace Look

def reports (x : Look) : Report × Report := (x.held, x.left)

def cycles (x : Look) : List Access :=
  match x.versions? with
  | none => []
  | some (control, processing) =>
    [.read (x.board.base + Register.controlVersion) control,
      .read (x.board.base + Register.processingVersion) processing]

def isCurrent (target : Version) (x : Look) : Bool :=
  x.versions?.any fun (control, processing) =>
    (Version.mk control.toUInt16 processing.toUInt16).combined = target.combined

end Look

namespace Report

def afterLook (target : Version) (report : Report) (x : Look) : Report :=
  report.add x.board.slot (if x.isCurrent target then .current else .updating)

def afterShare (report : Report) (x : Share) : Report :=
  x.failure?.elim report report.recordFailure

end Report

/-! ## Handing on -/

section Handed

variable {α β : Type} {r r' r'' : β} {f : β → α → β} {g : α → β × β}

/-- What is held at first is handed on from one to the other: each holds what the one before it has
left, and the last one leaves what is held in the end. -/
def Handed : β → List (β × β) → β → Prop
  | r, [], r' => r' = r
  | r, (held, left) :: rest, r' => held = r ∧ Handed left rest r'

theorem Handed.append {xs ys : List (β × β)} (h : Handed r xs r') (h' : Handed r' ys r'') :
    Handed r (xs ++ ys) r'' := by
  induction xs generalizing r with
  | nil =>
      rw [Handed] at h
      rwa [List.nil_append, ← h]
  | cons x rest ih => exact ⟨h.1, ih h.2⟩

theorem Handed.foldl_eq {xs : List α} (h : Handed r (xs.map g) r')
    (hleft : ∀ x ∈ xs, (g x).2 = f (g x).1 x) : r' = xs.foldl f r := by
  induction xs generalizing r with
  | nil => exact h
  | cons x rest ih =>
      rcases List.forall_mem_cons.mp hleft with ⟨hx, hrest⟩
      rw [List.foldl_cons, ← h.1, ← hx]
      exact ih h.2 hrest

theorem Handed.scanl_eq {xs : List α} (h : Handed r (xs.map g) r')
    (hleft : ∀ x ∈ xs, (g x).2 = f (g x).1 x) : xs.scanl f r = r :: xs.map fun x => (g x).2 := by
  induction xs generalizing r with
  | nil => rfl
  | cons x rest ih =>
      rcases List.forall_mem_cons.mp hleft with ⟨hx, hrest⟩
      rw [List.scanl_cons, ← h.1, ← hx, ih h.2 hrest, List.map_cons, h.1]

theorem Handed.getLast?_eq {xs : List (β × β)} (h : Handed r xs r') :
    (r :: xs.map Prod.snd).getLast? = some r' := by
  induction xs generalizing r with
  | nil => rw [h, List.map_nil, List.getLast?_singleton]
  | cons x rest ih =>
      rw [List.map_cons, List.getLast?_cons_cons]
      exact ih h.2

theorem Handed.exists_of_append {xs ys : List (β × β)} (h : Handed r (xs ++ ys) r'') :
    ∃ r', Handed r xs r' ∧ Handed r' ys r'' := by
  induction xs generalizing r with
  | nil => exact ⟨r, rfl, h⟩
  | cons x rest ih =>
      rcases ih h.2 with ⟨r', hrest, hys⟩
      exact ⟨r', ⟨h.1, hrest⟩, hys⟩

end Handed

namespace CrateUpdate

open BoardUpdate

variable {σ ε : Type} {s s' : σ} {report report' : Report} {b : Board} {job : UpdateJob Unit}
  {jobs jobs' : List (UpdateJob Unit)} {us us₁ us' : List BoardUpdate} {shares : List Share}
  {phases phases' : List (List Share)} {cycles : List Access}

/-! ## Phases -/

/-- The crate's update came to the share as a phase does to its board: after these cycles it went on
with the report that is left. -/
structure Taken (job : UpdateJob Unit) (x : Share) : Prop where
  ends : (phase job [x.before] : Job Report RomError _).Ends x.held x.cycles (.ok [x.after]) x.left
  left_eq : x.left = x.held.afterShare x

/-- A phase takes these updates to those by way of the shares: the ones that have failed are passed
by. -/
inductive Went (job : UpdateJob Unit) :
    List BoardUpdate → List Share → List BoardUpdate → Prop where
  | nil : Went job [] [] []
  | past {u : BoardUpdate} {us us' : List BoardUpdate} {shares : List Share}
      (hfailed : u.isFailed = true) (hrest : Went job us shares us') :
      Went job (u :: us) shares (u :: us')
  | share {x : Share} {us us' : List BoardUpdate} {shares : List Share}
      (hlive : x.before.isFailed = false) (hjob : job.Ends x.before x.cycles x.out x.after)
      (htaken : Taken job x) (hrest : Went job us shares us') :
      Went job (x.before :: us) (x :: shares) (x.after :: us')

inductive Passes :
    List (UpdateJob Unit) → List BoardUpdate → List (List Share) → List BoardUpdate → Prop where
  | nil (us : List BoardUpdate) : Passes [] us [] us
  | cons {job : UpdateJob Unit} {jobs : List (UpdateJob Unit)} {us us₁ us' : List BoardUpdate}
      {shares : List Share} {phases : List (List Share)} (hphase : Went job us shares us₁)
      (hrest : Passes jobs us₁ phases us') : Passes (job :: jobs) us (shares :: phases) us'

theorem Went.boards_eq (h : Went job us shares us') :
    us'.map BoardUpdate.board = us.map BoardUpdate.board := by
  induction h with
  | nil => rfl
  | past hfailed hrest ih => simp [ih]
  | @share x _ _ _ hlive hjob htaken hrest ih => simp [ih, x.board_eq]

theorem Passes.boards_eq (h : Passes jobs us phases us') :
    us'.map BoardUpdate.board = us.map BoardUpdate.board := by
  induction h with
  | nil => rfl
  | cons hphase hrest ih => exact ih.trans hphase.boards_eq

def slotsOf (us : List BoardUpdate) : List Slot := us.map BoardUpdate.slot

theorem slotsOf_eq (us : List BoardUpdate) :
    slotsOf us = (us.map BoardUpdate.board).map Board.slot := by
  rw [slotsOf, List.map_map]
  rfl

theorem Went.ends (h : Went job us shares us') {x : Share} (hx : x ∈ shares) :
    job.Ends x.before x.cycles x.out x.after := by
  induction h with
  | nil => cases hx
  | past hfailed hrest ih => exact ih hx
  | share hlive hjob htaken hrest ih =>
      rcases List.mem_cons.mp hx with rfl | hx
      · exact hjob
      · exact ih hx

theorem Passes.append (h : Passes jobs us phases us₁) (h' : Passes jobs' us₁ phases' us') :
    Passes (jobs ++ jobs') us (phases ++ phases') us' := by
  induction h with
  | nil => exact h'
  | cons hphase hrest ih => exact .cons hphase (ih h')

def AllFit (us : List BoardUpdate) : Prop := ∀ b ∈ us.map BoardUpdate.board, b.Fits

theorem Went.left_eq (h : Went job us shares us') {x : Share} (hx : x ∈ shares) :
    x.left = x.held.afterShare x := by
  induction h with
  | nil => cases hx
  | past hfailed hrest ih => exact ih hx
  | share hlive hjob htaken hrest ih =>
      rcases List.mem_cons.mp hx with rfl | hx
      · exact htaken.left_eq
      · exact ih hx

theorem Passes.left_eq (h : Passes jobs us phases us') {x : Share} (hx : x ∈ phases.flatten) :
    x.left = x.held.afterShare x := by
  induction h with
  | nil => cases hx
  | cons hphase hrest ih =>
      rcases List.mem_append.mp hx with hx | hx
      · exact hphase.left_eq hx
      · exact ih hx

theorem phase_cons (job : UpdateJob Unit) (u : BoardUpdate) (rest : List BoardUpdate) :
    (phase job (u :: rest) : Job Report ε _) =
      phase job [u] >>= fun one => phase job rest >>= fun rest' => pure (one ++ rest') := by
  simp only [phase]
  split
  · simp
  · rw [bind_assoc]
    congr 1
    funext x
    obtain ⟨result, u'⟩ := x
    cases result <;> simp [bind_assoc]

theorem ends_phase_of_isFailed {u : BoardUpdate} (hfailed : u.isFailed = true)
    {out : Outcome ε (List BoardUpdate)}
    (h : (phase job [u] : Job Report ε _).Ends report cycles out report') :
    cycles = [] ∧ out = .ok [u] ∧ report' = report := by
  rw [phase, if_pos hfailed, phase, pure_bind] at h
  exact Routine.ends_pure.mp h

/-- One board's job, run for itself, is the share of that board, whatever report goes with it. -/
theorem ends_share {u : BoardUpdate} (hkeeps : job.Keeps u.board.Owns fun u' => u'.board = u.board)
    (held left : Report) {out : Outcome ε (Except StepFailure Unit × BoardUpdate)}
    (h : (job.on u : Job Report ε _).Ends report cycles out report') :
    ∃ x : Share, x.before = u ∧ x.cycles = cycles ∧ x.reports = (held, left) ∧
      job.Ends x.before x.cycles x.out x.after ∧
      out = .ok (x.failure?.elim (.ok ()) .error, x.after) ∧ report' = report := by
  rcases Routine.ends_on h with ⟨rfl, ⟨_, u', rfl, hjob⟩ | ⟨failure, u', rfl, hjob⟩ |
    ⟨-, u', hjob⟩⟩
  · let x : Share := ⟨u, cycles, none, u', (hkeeps.of_ends rfl hjob).1, held, left⟩
    exact ⟨x, rfl, rfl, rfl, hjob, rfl, rfl⟩
  · let x : Share := ⟨u, cycles, some failure, u', (hkeeps.of_ends rfl hjob).1, held, left⟩
    exact ⟨x, rfl, rfl, rfl, hjob, rfl, rfl⟩
  · exact absurd rfl (hkeeps.of_ends rfl hjob).2

theorem ends_phase_of_live {u : BoardUpdate} (hlive : u.isFailed = false)
    (hkeeps : job.Keeps u.board.Owns fun u' => u'.board = u.board)
    {out : Outcome RomError (List BoardUpdate)}
    (h : (phase job [u] : Job Report RomError _).Ends report cycles out report') :
    ∃ x : Share, x.before = u ∧ x.cycles = cycles ∧ x.reports = (report, report') ∧
      job.Ends x.before x.cycles x.out x.after ∧ Taken job x ∧ out = .ok [x.after] := by
  have hone := h
  rw [phase, if_neg (by simp [hlive])] at hone
  rcases Routine.ends_bind.mp hone with ⟨_, _, report₁, after, rfl, hon, hafter⟩ | ⟨_, -, hon⟩ |
    ⟨-, hon⟩
  · rcases ends_share hkeeps report report' hon with ⟨x, rfl, rfl, hreports, hjob, hout, rfl⟩
    cases hout
    have hlast : (phase job [] >>= fun rest => pure (x.after :: rest) :
        Job Report RomError _).Ends (report₁.afterShare x) after out report' := by
      cases hfailure : x.failure? with
      | none => simpa [Report.afterShare, hfailure] using hafter
      | some failure =>
          rw [hfailure] at hafter
          dsimp only [Option.elim_some] at hafter
          have hlines := Exchange.isSilent_reportAll failure.events
          have hrecord := Routine.ends_lift_bind hlines hafter
          rw [Report.afterShare, hfailure]
          exact Routine.ends_modify_bind.mp hrecord
    rw [phase, pure_bind] at hlast
    rcases Routine.ends_pure.mp hlast with ⟨rfl, rfl, hleft⟩
    rcases Prod.mk.inj hreports with ⟨hheld', hleft'⟩
    rw [List.append_nil] at h ⊢
    refine ⟨x, rfl, rfl, hreports, hjob, ⟨?_, ?_⟩, rfl⟩
    · rwa [hheld', hleft']
    · rw [hheld', hleft', hleft]
  all_goals
    rcases ends_share hkeeps report report' hon with ⟨_, -, -, -, -, habsurd, -⟩
    cases habsurd

def EndsInShares (job : UpdateJob Unit) (us : List BoardUpdate) (report : Report)
    (cycles : List Access) (report' : Report) (us' : List BoardUpdate) : Prop :=
  ∃ shares, Went job us shares us' ∧ cycles = shares.flatMap Share.cycles ∧
    Handed report (shares.map Share.reports) report'

theorem ends_phase_one {u : BoardUpdate}
    (hkeeps : job.Keeps u.board.Owns fun u' => u'.board = u.board)
    {out : Outcome RomError (List BoardUpdate)}
    (h : (phase job [u] : Job Report RomError _).Ends report cycles out report') :
    ∃ u', out = .ok [u'] ∧ ∀ {us us' : List BoardUpdate} {later : List Access} {report'' : Report},
      EndsInShares job us report' later report'' us' →
        EndsInShares job (u :: us) report (cycles ++ later) report'' (u' :: us') := by
  cases hlive : u.isFailed with
  | true =>
      rcases ends_phase_of_isFailed hlive h with ⟨rfl, rfl, rfl⟩
      refine ⟨u, rfl, ?_⟩
      rintro us us' later report'' ⟨shares, hwent, rfl, hhanded⟩
      exact ⟨shares, .past hlive hwent, rfl, hhanded⟩
  | false =>
      rcases ends_phase_of_live hlive hkeeps h with ⟨x, rfl, rfl, hreports, hjob, htaken, rfl⟩
      refine ⟨x.after, rfl, ?_⟩
      rintro us us' later report'' ⟨shares, hwent, rfl, hhanded⟩
      refine ⟨x :: shares, .share hlive hjob htaken hwent, rfl, ?_⟩
      rw [List.map_cons, hreports]
      exact ⟨rfl, hhanded⟩

theorem ends_phase (hfits : AllFit us)
    (hkeeps : ∀ b : Board, b.Fits → job.Keeps b.Owns fun u => u.board = b)
    {out : Outcome RomError (List BoardUpdate)}
    (h : (phase job us : Job Report RomError _).Ends report cycles out report') :
    ∃ us', out = .ok us' ∧ EndsInShares job us report cycles report' us' := by
  induction us generalizing report cycles out with
  | nil =>
      rcases Routine.ends_pure.mp h with ⟨rfl, rfl, rfl⟩
      exact ⟨[], rfl, [], .nil, rfl, rfl⟩
  | cons u rest ih =>
      rcases List.forall_mem_cons.mp hfits with ⟨hu, hrest⟩
      rw [phase_cons] at h
      rcases Routine.ends_bind.mp h with ⟨_, _, _, _, rfl, hfirst, hlater⟩ | ⟨_, -, hfirst⟩ |
        ⟨-, hfirst⟩
      · rcases ends_phase_one (hkeeps _ hu) hfirst with ⟨u', hout, hcons⟩
        cases hout
        rcases Routine.ends_bind.mp hlater with ⟨_, _, _, _, rfl, hothers, hpure⟩ |
          ⟨_, -, hothers⟩ | ⟨-, hothers⟩
        · rcases Routine.ends_pure.mp hpure with ⟨rfl, rfl, rfl⟩
          rcases ih hrest hothers with ⟨_, hout, hshares⟩
          cases hout
          rw [List.append_nil]
          exact ⟨_, rfl, hcons hshares⟩
        all_goals
          rcases ih hrest hothers with ⟨_, hout, -⟩
          cases hout
      all_goals
        rcases ends_phase_one (hkeeps _ hu) hfirst with ⟨_, hout, -⟩
        cases hout

/-- Work on the updates of a crate that consists of a phase for each of the jobs. -/
def Consists (work : List BoardUpdate → Job Report RomError (List BoardUpdate))
    (jobs : List (UpdateJob Unit)) : Prop :=
  ∀ ⦃us report cycles out report'⦄, AllFit us → (work us).Ends report cycles out report' →
    ∃ phases us', Passes jobs us phases us' ∧ out = .ok us' ∧
      cycles = phases.flatten.flatMap Share.cycles ∧
      Handed report (phases.flatten.map Share.reports) report'

theorem consists_phase (hkeeps : ∀ b : Board, b.Fits → job.Keeps b.Owns fun u => u.board = b) :
    Consists (phase job) [job] := by
  intro us report cycles out report' hfits h
  rcases ends_phase hfits hkeeps h with ⟨us', rfl, shares, hwent, rfl, hhanded⟩
  exact ⟨[shares], us', .cons hwent (.nil us'), rfl, by simp, by simpa using hhanded⟩

theorem Consists.bind {work work' : List BoardUpdate → Job Report RomError (List BoardUpdate)}
    (h : Consists work jobs) (h' : Consists work' jobs') :
    Consists (fun us => work us >>= work') (jobs ++ jobs') := by
  intro us report cycles out report' hfits hends
  rcases Routine.ends_bind.mp hends with ⟨_, us₁, _, _, rfl, hfirst, hsecond⟩ | ⟨_, -, hfirst⟩ |
    ⟨-, hfirst⟩
  · rcases h hfits hfirst with ⟨phases, _, hpasses, hout, rfl, hhanded⟩
    cases hout
    have hfits' : AllFit us₁ := by rwa [AllFit, hpasses.boards_eq]
    rcases h' hfits' hsecond with ⟨phases', us', hpasses', rfl, rfl, hhanded'⟩
    refine ⟨phases ++ phases', us', hpasses.append hpasses', rfl, by simp, ?_⟩
    rw [List.flatten_append, List.map_append]
    exact hhanded.append hhanded'
  all_goals
    rcases h hfits hfirst with ⟨_, _, -, hout, -, -⟩
    cases hout

theorem Consists.remark {work : List BoardUpdate → Job Report RomError (List BoardUpdate)} (r : Remark)
    (h : Consists work jobs) : Consists (fun us => Job.remark r >>= fun _ => work us) jobs :=
  fun _ _ _ _ _ hfits hends => h hfits (Job.ends_remark_bind hends)

theorem consists_throughPhases (file : Image) :
    Consists (throughPhases file) (stages file) :=
  (consists_phase moves_reset.keeps).bind <| (consists_phase moves_waitReady.keeps).bind <|
    .remark .erasing <| (consists_phase moves_startErase.keeps).bind <|
    (consists_phase moves_awaitErase.keeps).bind <| .remark .programming <|
    (consists_phase (moves_refill file).keeps).bind <| .remark .rebooting <|
    (consists_phase moves_startReboot.keeps).bind (consists_phase moves_awaitReboot.keeps)

/-! ## What becomes of the updates -/

variable {start next : Phase} {x : Share}

/-- The updates have come to a phase, apart from those that failed. -/
def AllAt (phase : Phase) (us : List BoardUpdate) : Prop :=
  ∀ u ∈ us, u.isFailed = true ∨ u.phase = phase

def live (us : List BoardUpdate) : List BoardUpdate := us.filter fun u => !u.isFailed

theorem Went.before_eq (h : Went job us shares us') :
    shares.map Share.before = live us := by
  induction h with
  | nil => rfl
  | past hfailed hrest ih => simpa [live, hfailed] using ih
  | share hlive hjob htaken hrest ih => simpa [live, hlive] using ih

def carriedOn (shares : List Share) : List BoardUpdate :=
  (shares.filter Share.isDone).map Share.after

/-- The share takes its update from one phase to another, or to the very failure that it tells. -/
structure TakesFrom (start next : Phase) (x : Share) : Prop where
  start_eq : x.before.phase = start
  ends : x.failure? = none ∧ x.after.phase = next ∨
    ∃ failure, failure.slot = x.slot ∧ x.failure? = some failure ∧ x.after.phase = .failed failure

theorem takesFrom (hmoves : Moves start next job) (hfits : x.board.Fits)
    (hstart : x.before.phase = start) (h : job.Ends x.before x.cycles x.out x.after) :
    TakesFrom start next x := by
  refine ⟨hstart, ?_⟩
  rcases (hmoves.leads _ hfits rfl hstart h).2 with ⟨hout, hphase⟩ | ⟨step, -, cause, hout, hphase⟩
  · cases hfailure : x.failure? with
    | none => exact .inl ⟨rfl, hphase⟩
    | some failure =>
        rw [Share.out, hfailure] at hout
        cases hout
  · cases hfailure : x.failure? with
    | none =>
        rw [Share.out, hfailure] at hout
        cases hout
    | some failure =>
        rw [Share.out, hfailure] at hout
        cases hout
        exact .inr ⟨_, rfl, rfl, hphase⟩

/-- What a share tells is what its update keeps. -/
theorem TakesFrom.failure_eq (h : TakesFrom start next x) (hnext : next.failure? = none) :
    x.after.failure? = x.failure? := by
  rcases h.ends with ⟨hnone, hphase⟩ | ⟨failure, -, hsome, hphase⟩
  · rw [hnone, BoardUpdate.failure?, hphase, hnext]
  · rw [hsome, BoardUpdate.failure?, hphase, Phase.failure?]

theorem TakesFrom.slot_eq (h : TakesFrom start next x) {failure : StepFailure}
    (hfailure : x.failure? = some failure) : failure.slot = x.slot := by
  rcases h.ends with ⟨hnone, -⟩ | ⟨failure', hslot, hsome, -⟩
  · simp [hnone] at hfailure
  · rw [hsome] at hfailure
    rwa [← Option.some.inj hfailure]

theorem Went.takesFrom (hmoves : Moves start next job) (hfits : AllFit us) (hat : AllAt start us)
    (h : Went job us shares us') : (∀ x ∈ shares, TakesFrom start next x) ∧ AllAt next us' := by
  induction h with
  | nil => exact ⟨List.forall_mem_nil _, List.forall_mem_nil _⟩
  | past hfailed hrest ih =>
      rcases List.forall_mem_cons.mp hfits with ⟨-, hfits'⟩
      rcases List.forall_mem_cons.mp hat with ⟨-, hat'⟩
      rcases ih hfits' hat' with ⟨htakes, hnext⟩
      exact ⟨htakes, List.forall_mem_cons.mpr ⟨.inl hfailed, hnext⟩⟩
  | @share x us us' shares hlive hjob htaken hrest ih =>
      rcases List.forall_mem_cons.mp hfits with ⟨hx, hfits'⟩
      rcases List.forall_mem_cons.mp hat with ⟨hphase, hat'⟩
      rcases ih hfits' hat' with ⟨htakes, hnext⟩
      have hstart : x.before.phase = start := hphase.resolve_left (by simp [hlive])
      have hfirst := CrateUpdate.takesFrom hmoves hx hstart hjob
      have hafter : x.after.isFailed = true ∨ x.after.phase = next := by
        rcases hfirst.ends with ⟨-, hphase⟩ | ⟨failure, -, -, hphase⟩
        · exact .inr hphase
        · left
          rw [BoardUpdate.isFailed, BoardUpdate.failure?, hphase]
          rfl
      exact ⟨List.forall_mem_cons.mpr ⟨hfirst, htakes⟩, List.forall_mem_cons.mpr ⟨hafter, hnext⟩⟩

theorem Went.live_eq (hnext : next.failure? = none) (h : Went job us shares us')
    (htakes : ∀ x ∈ shares, TakesFrom start next x) : live us' = carriedOn shares := by
  induction h with
  | nil => rfl
  | past hfailed hrest ih => simpa [live, hfailed] using ih htakes
  | @share x us us' shares hlive hjob htaken hrest ih =>
      rcases List.forall_mem_cons.mp htakes with ⟨hfirst, htakes'⟩
      have hsame : x.after.isFailed = !x.isDone := by
        rw [BoardUpdate.isFailed, hfirst.failure_eq hnext, Share.isDone, Option.not_isNone]
      cases hdone : x.isDone with
      | false => simpa [live, carriedOn, hsame, hdone] using ih htakes'
      | true => simpa [live, carriedOn, hsame, hdone] using ih htakes'

/-! ## Looks -/

theorem ends_readVersion (hb : b.Fits) {out : Outcome ε Version}
    (h : (b.readVersion : Job σ ε Version).Ends s cycles out s') :
    ∃ control processing : UInt32,
      cycles = [.read (b.base + Register.controlVersion) control,
        .read (b.base + Register.processingVersion) processing] ∧
      out = .ok ⟨control.toUInt16, processing.toUInt16⟩ ∧ s' = s := by
  rw [Board.readVersion, hb.read_eq (by decide), hb.read_eq (by decide)] at h
  rcases Job.ends_ask_bind h with ⟨control, _, rfl, hrest⟩
  rcases Job.ends_ask_bind hrest with ⟨processing, _, rfl, hpure⟩
  rcases Routine.ends_pure.mp hpure with ⟨rfl, rfl, rfl⟩
  exact ⟨control, processing, rfl, rfl, rfl⟩

theorem ends_isCurrent (hb : b.Fits) {target : Version} {out : Outcome ε Bool}
    (h : (isCurrent target b : Job σ ε Bool).Ends s cycles out s') :
    ∃ versions, ∀ held left, cycles = Look.cycles ⟨b, some versions, held, left⟩ ∧
      out = .ok (Look.isCurrent target ⟨b, some versions, held, left⟩) ∧ s' = s := by
  rcases Routine.ends_bind.mp h with ⟨_, version, _, after, rfl, hread, hrest⟩ | ⟨_, -, hread⟩ |
    ⟨-, hread⟩
  · rcases ends_readVersion hb hread with ⟨control, processing, rfl, heq, rfl⟩
    cases heq
    refine ⟨(control, processing), ?_⟩
    split at hrest
    next hcurrent =>
      have hpure := Routine.ends_lift_bind (Exchange.isSilent_report _) (Job.ends_remark_bind hrest)
      rcases Routine.ends_pure.mp hpure with ⟨rfl, rfl, rfl⟩
      simp [Look.cycles, Look.isCurrent, hcurrent]
    next hother =>
      rcases Routine.ends_pure.mp hrest with ⟨rfl, rfl, rfl⟩
      simp [Look.cycles, Look.isCurrent, hother]
  all_goals
    rcases ends_readVersion hb hread with ⟨_, _, -, habsurd, -⟩
    cases habsurd

/-- A board is looked at by reading both its version registers, unless the update is forced. -/
theorem ends_look (hb : b.Fits) (held left : Report) {target : Version} {force : Bool}
    {out : Outcome ε Bool}
    (h : (if force then pure false else isCurrent target b : Job σ ε Bool).Ends s cycles out s') :
    ∃ x : Look, x.board = b ∧ x.versions?.isNone = force ∧ x.cycles = cycles ∧
      x.reports = (held, left) ∧ out = .ok (x.isCurrent target) ∧ s' = s := by
  cases force with
  | true =>
      rcases Routine.ends_pure.mp h with ⟨rfl, rfl, rfl⟩
      exact ⟨⟨b, none, held, left⟩, rfl, rfl, rfl, rfl, rfl, rfl⟩
  | false =>
      rcases ends_isCurrent hb h with ⟨versions, hlook⟩
      rcases hlook held left with ⟨rfl, rfl, rfl⟩
      exact ⟨⟨b, some versions, held, left⟩, rfl, rfl, rfl, rfl, rfl, rfl⟩

def enlisted (config : UpdateConfig) (looks : List Look) : List BoardUpdate :=
  (looks.filter fun x => !x.isCurrent config.target).map fun x =>
    .new x.board config.budgets config.timing

/-- The crate's update came to the look as it enters its board: after these cycles it went on with
the report that is left. -/
structure Entered (config : UpdateConfig) (force : Bool) (x : Look) : Prop where
  ends : (enlist config force [x.board] : Job Report RomError _).Ends x.held x.cycles
    (.ok (enlisted config [x])) x.left
  left_eq : x.left = x.held.afterLook config.target x

theorem enlist_eq_bind (config : UpdateConfig) (force : Bool) (b : Board) (rest : List Board) :
    (enlist config force (b :: rest) : Job Report ε _) =
      enlist config force [b] >>= fun one =>
        enlist config force rest >>= fun us => pure (one ++ us) := by
  rw [enlist_cons, enlist_cons, bind_assoc]
  congr 1
  funext current
  cases current <;> simp [enlist]

theorem ends_enlist_one (hb : b.Fits) {config : UpdateConfig} {force : Bool}
    {out : Outcome RomError (List BoardUpdate)}
    (h : (enlist config force [b] : Job Report RomError _).Ends report cycles out report') :
    ∃ x : Look, x.board = b ∧ x.versions?.isNone = force ∧ x.cycles = cycles ∧
      x.reports = (report, report') ∧ Entered config force x ∧ out = .ok (enlisted config [x]) := by
  have hone := h
  rw [enlist_cons] at hone
  rcases Routine.ends_bind.mp hone with ⟨_, _, _, _, rfl, hlook, hafter⟩ | ⟨_, -, hlook⟩ |
    ⟨-, hlook⟩
  · rcases ends_look hb report report' hlook with ⟨x, rfl, hforce, rfl, hreports, hcurrent, rfl⟩
    cases hcurrent
    rcases Prod.mk.inj hreports with ⟨hheld, hleft⟩
    rw [enlist, pure_bind] at hafter
    split at hafter
    next hcurrent =>
      have hlast := Routine.ends_modify_bind.mp hafter
      rcases Routine.ends_pure.mp hlast with ⟨rfl, rfl, rfl⟩
      have hnone : enlisted config [x] = [] := by simp [enlisted, hcurrent]
      rw [List.append_nil] at h ⊢
      refine ⟨x, rfl, hforce, rfl, hreports, ⟨?_, ?_⟩, by rw [hnone]⟩
      · rwa [hheld, hleft, hnone]
      · rw [hheld, hleft, Report.afterLook, if_pos hcurrent]
    next hother =>
      have hlast := Routine.ends_modify_bind.mp hafter
      rcases Routine.ends_pure.mp hlast with ⟨rfl, rfl, rfl⟩
      have hself : enlisted config [x] = [.new x.board config.budgets config.timing] := by
        simp [enlisted, hother]
      rw [List.append_nil] at h ⊢
      refine ⟨x, rfl, hforce, rfl, hreports, ⟨?_, ?_⟩, by rw [hself]⟩
      · rwa [hheld, hleft, hself]
      · rw [hheld, hleft, Report.afterLook, if_neg hother]
  all_goals
    rcases ends_look hb report report' hlook with ⟨_, -, -, -, -, habsurd, -⟩
    cases habsurd

theorem enlisted_cons (config : UpdateConfig) (x : Look) (looks : List Look) :
    enlisted config (x :: looks) = enlisted config [x] ++ enlisted config looks := by
  cases hcurrent : x.isCurrent config.target <;> simp [enlisted, hcurrent]

theorem ends_enlist {config : UpdateConfig} {force : Bool} {boards : List Board}
    (hfits : ∀ b ∈ boards, b.Fits) {out : Outcome RomError (List BoardUpdate)}
    (h : (enlist config force boards : Job Report RomError _).Ends report cycles out report') :
    ∃ looks : List Look, looks.map Look.board = boards ∧
      (∀ x ∈ looks, x.versions?.isNone = force ∧ Entered config force x) ∧
      cycles = looks.flatMap Look.cycles ∧ out = .ok (enlisted config looks) ∧
      Handed report (looks.map Look.reports) report' := by
  induction boards generalizing report cycles out with
  | nil =>
      rcases Routine.ends_pure.mp h with ⟨rfl, rfl, rfl⟩
      exact ⟨[], rfl, List.forall_mem_nil _, rfl, rfl, rfl⟩
  | cons b rest ih =>
      rcases List.forall_mem_cons.mp hfits with ⟨hb, hrest⟩
      rw [enlist_eq_bind] at h
      rcases Routine.ends_bind.mp h with ⟨_, _, _, _, rfl, hfirst, hlater⟩ | ⟨_, -, hfirst⟩ |
        ⟨-, hfirst⟩
      · rcases ends_enlist_one hb hfirst with ⟨x, rfl, hforce, rfl, hreports, hentered, hone⟩
        cases hone
        rcases Routine.ends_bind.mp hlater with ⟨_, us, _, _, rfl, hothers, hpure⟩ |
          ⟨_, -, hothers⟩ | ⟨-, hothers⟩
        · rcases Routine.ends_pure.mp hpure with ⟨rfl, rfl, rfl⟩
          rcases ih hrest hothers with ⟨looks, rfl, hlooks, rfl, hus, hhanded⟩
          cases hus
          refine ⟨x :: looks, rfl, List.forall_mem_cons.mpr ⟨⟨hforce, hentered⟩, hlooks⟩, ?_, ?_, ?_⟩
          · rw [List.append_nil, List.flatMap_cons]
          · rw [enlisted_cons config x looks]
          · rw [List.map_cons, hreports]
            exact ⟨rfl, hhanded⟩
        all_goals
          rcases ih hrest hothers with ⟨_, -, -, -, habsurd, -⟩
          cases habsurd
      all_goals
        rcases ends_enlist_one hb hfirst with ⟨_, -, -, -, -, -, habsurd⟩
        cases habsurd

/-! ## The whole update -/

/-- The update of a crate, with the updates of its boards as they are left in the end. -/
def updateBoards (boards : List Board) (config : UpdateConfig) (file : Image) (force : Bool) :
    Job Report RomError (List BoardUpdate) := do
  let us ← enlist config force boards
  Job.remark (.resetting us.length)
  throughPhases file us

/-- What the update of a crate consists of, with the bus cycles and the report that come of it. The
report goes from empty through the hands of every look and share. -/
structure Accounts (boards : List Board) (config : UpdateConfig) (file : Image) (force : Bool)
    (looks : List Look) (phases : List (List Share)) (us : List BoardUpdate)
    (cycles : List Access) (report : Report) : Prop where
  boards_eq : looks.map Look.board = boards
  forced : ∀ x ∈ looks, x.versions?.isNone = force
  entered : ∀ x ∈ looks, Entered config force x
  passes : Passes (stages file) (enlisted config looks) phases us
  cycles_eq : cycles = looks.flatMap Look.cycles ++ phases.flatten.flatMap Share.cycles
  handed : Handed {} (looks.map Look.reports ++ phases.flatten.map Share.reports) report

/-- After the looks, the report is what they add up to, and so it is in the end. -/
theorem Accounts.handed_eq {boards : List Board} {config : UpdateConfig} {file : Image}
    {force : Bool} {looks : List Look} {phases : List (List Share)}
    (h : Accounts boards config file force looks phases us cycles report) :
    let entered := looks.foldl (Report.afterLook config.target) {}
    Handed {} (looks.map Look.reports) entered ∧
      Handed entered (phases.flatten.map Share.reports) report := by
  rcases h.handed.exists_of_append with ⟨entered, hlooks, hshares⟩
  obtain rfl := hlooks.foldl_eq fun x hx => (h.entered x hx).left_eq
  exact ⟨hlooks, hshares⟩

theorem Accounts.report_eq {boards : List Board} {config : UpdateConfig} {file : Image}
    {force : Bool} {looks : List Look} {phases : List (List Share)}
    (h : Accounts boards config file force looks phases us cycles report) : report =
      phases.flatten.foldl Report.afterShare (looks.foldl (Report.afterLook config.target) {}) :=
  h.handed_eq.2.foldl_eq fun _ => h.passes.left_eq

theorem boards_enlisted (config : UpdateConfig) (looks : List Look) :
    (enlisted config looks).map BoardUpdate.board =
      (looks.filter fun x => !x.isCurrent config.target).map Look.board := by
  rw [enlisted, List.map_map]
  rfl

theorem allAt_enlisted (config : UpdateConfig) (looks : List Look) :
    AllAt .init (enlisted config looks) := by
  intro u hu
  rcases List.mem_map.mp hu with ⟨x, -, rfl⟩
  exact .inr rfl

theorem allFit_enlisted {config : UpdateConfig} {looks : List Look}
    (hfits : ∀ b ∈ looks.map Look.board, b.Fits) : AllFit (enlisted config looks) := by
  intro b hb
  rw [boards_enlisted] at hb
  apply hfits b
  exact (List.filter_sublist.map Look.board).subset hb

theorem ends_updateBoards {boards : List Board} (hfits : ∀ b ∈ boards, b.Fits)
    {config : UpdateConfig} {file : Image} {force : Bool}
    {out : Outcome RomError (List BoardUpdate)}
    (h : (updateBoards boards config file force).Ends {} cycles out report) :
    ∃ looks phases us, out = .ok us ∧
      Accounts boards config file force looks phases us cycles report := by
  rcases Routine.ends_bind.mp h with ⟨_, _, _, _, rfl, henlist, hphases⟩ | ⟨_, -, henlist⟩ |
    ⟨-, henlist⟩
  · rcases ends_enlist hfits henlist with ⟨looks, rfl, hlooks, rfl, heq, hhanded⟩
    cases heq
    rcases consists_throughPhases file (allFit_enlisted hfits) (Job.ends_remark_bind hphases) with
      ⟨phases, us, hpasses, rfl, rfl, hhanded'⟩
    refine ⟨looks, phases, us, rfl, rfl, fun x hx => (hlooks x hx).1, fun x hx => (hlooks x hx).2,
      hpasses, rfl, hhanded.append hhanded'⟩
  all_goals
    rcases ends_enlist hfits henlist with ⟨_, -, -, -, habsurd, -⟩
    cases habsurd

theorem fill_eq (boards : List Board) (config : UpdateConfig) (file : Image) (force : Bool) :
    fill boards config file force = updateBoards boards config file force >>= fun _ => do
      let report ← Routine.get
      Routine.lift (Exchange.reportAll (report.boards.map fun (slot, st) => closingLine slot st))
      Job.remark (.crateDone report.size report.skipped report.failed report.passedMask)
      return report := by
  simp only [fill, updateBoards, runPhases_eq, bind_assoc, pure_bind]

theorem makes_run_of_updateBoards {ω : Type} [Bus ω] {registry : Registry} {config : UpdateConfig}
    {file : Image} (hfile : file.isLoaded = true) {force : Bool} {t : σ} {w w' : ω}
    (h : (updateBoards registry.boards config file force).Makes {} w cycles (.ok us) report w') :
    (run registry config file force : Job σ RomError Report).Makes t w cycles (.ok report) t
      w' := by
  have hfill : (fill registry.boards config file force).Makes {} w cycles (.ok report) report
      w' := by
    rw [fill_eq]
    apply h.bind_silent
    apply Routine.makes_get.silent_bind
    apply (Routine.makes_lift (Exchange.isSilent_reportAll _)).silent_bind
    exact (Routine.makes_remark _).silent_bind (Routine.makes_pure report)
  rw [run, hfile, if_neg (by simp)]
  exact hfill.on.bind_silent (Routine.makes_pure _)

/-- On any bus, the update of a loaded image consists of looks and shares. -/
theorem exists_accounts {ω : Type} [Bus ω] {registry : Registry}
    (hfits : ∀ b ∈ registry.boards, b.Fits) (config : UpdateConfig) {file : Image}
    (hfile : file.isLoaded = true) (force : Bool) (t : σ) (w : ω) :
    ∃ cycles looks phases us report w',
      (run registry config file force : Job σ RomError Report).Makes t w cycles (.ok report) t w' ∧
      (updateBoards registry.boards config file force).Makes {} w cycles (.ok us) report w' ∧
      Accounts registry.boards config file force looks phases us cycles report := by
  let job := updateBoards registry.boards config file force
  have hmakes : job.Makes {} w (Exchange.cycles (job {}) w) ((job {}).run Bus.handler w).1.1
    ((job {}).run Bus.handler w).1.2 ((job {}).run Bus.handler w).2 := ⟨rfl, rfl⟩
  rcases ends_updateBoards hfits hmakes.ends with ⟨looks, phases, us, hout, haccounts⟩
  rw [hout] at hmakes
  exact ⟨_, looks, phases, us, _, _, makes_run_of_updateBoards hfile hmakes, hmakes, haccounts⟩

/-! ## A crate that is updated in part -/

theorem versions?_of_fixedBus {α : Type} {d : Exchange α} {w : FixedBus} {x : Look}
    (hlooked : x.versions?.isNone = false) (hcycles : x.cycles ⊆ Exchange.cycles d w) :
    x.versions? = some (w.word (x.board.base + Register.controlVersion),
      w.word (x.board.base + Register.processingVersion)) := by
  cases hversions : x.versions? with
  | none =>
      rw [hversions] at hlooked
      cases hlooked
  | some versions =>
      rcases versions with ⟨control, processing⟩
      rw [Look.cycles, hversions] at hcycles
      rw [← FixedBus.word_of_mem_cycles (hcycles (.head _)),
        ← FixedBus.word_of_mem_cycles (hcycles (.tail _ (.head _)))]

/-- On this bus the board in the first slot reports firmware 3/4. Everywhere else an engine is ready
and a latch is set, but what is read back in the fourth slot is not what is read back elsewhere. -/
def mixedBus : FixedBus where
  word address :=
    if address = Slot.first.base + Register.controlVersion then 3
    else if address = Slot.first.base + Register.processingVersion then 4
    else if Slot.ofAddress? address = some .fourth then 6
    else 2

def mixedRegistry : Registry :=
  [Slot.first, .third, .fourth, .fifth].foldl (fun r slot => r.insert slot slot.base) .empty

/-- The update of these boards to firmware 3/4 with an image of the one word that all but the fourth
slot reads back. -/
def mixedUpdate : Exchange (Outcome RomError Report × Unit) :=
  run mixedRegistry { target := ⟨3, 4⟩ } (.ofWords [2]) false ()

end CrateUpdate
end Reflash
