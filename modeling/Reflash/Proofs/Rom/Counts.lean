import Reflash.Proofs.Rom.Calls
import Reflash.Proofs.Rom.Heard
/-!
# What a session counts

A session counts its commands beside issuing them, and it can stop between any two bus cycles.
`Board.Carries` takes bus cycles apart into polls, whole command frames and readbacks, and
`RomJob.Accounts` says of a part of a session that it has counted just the commands among them,
whatever the bus answered and however the part ended. It has one rule for each way to build a part.
A count that lags behind its command has a rule together with the command.
-/

namespace Reflash

/-- A command that was issued, and the value that was read for it, if one was. -/
structure Rom.Transaction where
  cmd : Command
  value? : Option UInt32 := none
  deriving DecidableEq

namespace Rom

def Transaction.events (t : Transaction) : List RomEvent :=
  .issued t.cmd :: t.value?.toList.map .answered

/-- The transactions in what is heard: each command, with the value that is read right behind it. -/
def transactions : List RomEvent → List Transaction
  | [] => []
  | .issued cmd :: .answered value :: rest => ⟨cmd, some value⟩ :: transactions rest
  | .issued cmd :: rest => ⟨cmd, none⟩ :: transactions rest
  | .answered _ :: rest => transactions rest

theorem transactions_events (ts : List Transaction) :
    transactions (ts.flatMap Transaction.events) = ts := by
  induction ts with
  | nil => rfl
  | cons t rest ih =>
      obtain ⟨cmd, value?⟩ := t
      cases value? with
      | some value => exact congrArg (⟨cmd, some value⟩ :: ·) ih
      | none =>
          -- What is heard next is a command, if anything.
          cases rest with
          | nil => rfl
          | cons t' rest => exact congrArg (⟨cmd, none⟩ :: ·) ih

end Rom

def RomCounts.plus (c : RomCounts) (ts : List Rom.Transaction) : RomCounts where
  pageWaits :=
    c.pageWaits + ts.countP fun t => t.cmd.opcode = .pageProgram ∧ t.cmd.endOfCommand = true
  endOfCommands := c.endOfCommands + ts.countP fun t => t.cmd.endOfCommand
  writeEnables := c.writeEnables + ts.countP fun t => t.cmd.opcode = .writeEnable
  wordsWritten := c.wordsWritten + ts.countP fun t => t.cmd.opcode = .pageProgram
  wordsRead := c.wordsRead + ts.countP fun t => t.cmd.opcode = .autoRead ∧ t.value?.isSome = true

namespace RomCounts

variable (c : RomCounts)

theorem plus_append (ts ts' : List Rom.Transaction) :
    c.plus (ts ++ ts') = (c.plus ts).plus ts' := by
  simp only [plus, List.countP_append, Nat.add_assoc]

def closedBy (cmd : Rom.Command) : RomCounts :=
  { c with endOfCommands := c.endOfCommands + cmd.endOfCommand.toNat }

theorem plus_of_plain {cmd : Rom.Command}
    (hplain : cmd.opcode ∉ [.writeEnable, .pageProgram, .autoRead]) (value? : Option UInt32) :
    c.plus [⟨cmd, value?⟩] = c.closedBy cmd := by
  obtain ⟨opcode, address, data, closing⟩ := cmd
  have hopcode : opcode ∉ [.writeEnable, .pageProgram, .autoRead] := hplain
  clear hplain
  cases closing <;> cases opcode <;> first | rfl | exact absurd (by decide) hopcode

end RomCounts

/-! ## Cycles taken apart -/

/-- The cycles are polls of the command engine, whole frames and readbacks, and nothing but these
events is heard of them. -/
inductive Board.Carries (b : Board) : List Access → List RomEvent → Prop where
  | nil : b.Carries [] []
  | poll (status : UInt32) {cycles : List Access} {events : List RomEvent}
      (rest : b.Carries cycles events) :
      b.Carries (.read (b.base + Register.engineStatus) status :: cycles) events
  | command (cmd : Rom.Command) {cycles : List Access} {events : List RomEvent}
      (rest : b.Carries cycles events) :
      b.Carries (b.frameCycles cmd ++ cycles) (.issued cmd :: events)
  | answer (value : UInt32) {cycles : List Access} {events : List RomEvent}
      (rest : b.Carries cycles events) :
      b.Carries (.read (b.base + Register.readback) value :: cycles) (.answered value :: events)

namespace Board.Carries

variable {b : Board} {cycles cycles' : List Access} {events events' : List RomEvent}

theorem append (h : b.Carries cycles events) (h' : b.Carries cycles' events') :
    b.Carries (cycles ++ cycles') (events ++ events') := by
  induction h with
  | nil => exact h'
  | poll status _ ih => exact .poll status ih
  | command cmd _ ih =>
      rw [List.append_assoc]
      exact .command cmd ih
  | answer value _ ih => exact .answer value ih

theorem hears (h : b.Carries cycles events) : b.Hears cycles events := by
  induction h with
  | nil => exact b.hears_nil
  | poll status _ ih => exact (b.hears_poll status).append ih
  | command cmd _ ih => exact (b.hears_frameCycles cmd).append ih
  | answer value _ ih => exact (b.hears_readback value).append ih

end Board.Carries

/-! ## Parts of a session -/

namespace RomJob

variable {α β : Type}

/-- However this part of a session with the board ends, it has counted the transactions that are
heard of it. -/
def Accounts (b : Board) (work : RomJob α) : Prop :=
  ∀ ⦃s s' cycles out⦄, s.board = b → work.Ends s cycles out s' →
    ∃ ts : List Rom.Transaction, b.Carries cycles (ts.flatMap Rom.Transaction.events) ∧
      s' = { s with counts := s.counts.plus ts }

def IsQuiet (b : Board) (work : RomJob α) : Prop :=
  ∀ ⦃s s' cycles out⦄, s.board = b → work.Ends s cycles out s' → b.Carries cycles [] ∧ s' = s

/-- The part succeeds as a whole or comes to nothing: these events are heard of it and it counts
this, or nothing is heard of it and it counts nothing. -/
structure IsAtomic (b : Board) (events : α → List RomEvent) (counts : RomCounts → RomCounts)
    (work : RomJob α) : Prop where
  done : ∀ ⦃s s' cycles a⦄, s.board = b → work.Ends s cycles (.ok a) s' →
    b.Carries cycles (events a) ∧ s' = { s with counts := counts s.counts }
  stopped : ∀ ⦃s s' cycles out⦄, s.board = b → work.Ends s cycles out s' → (∀ a, out ≠ .ok a) →
    b.Carries cycles [] ∧ s' = s

abbrev Issues (b : Board) (cmd : Rom.Command) (counts : RomCounts → RomCounts)
    (work : RomJob Unit) : Prop :=
  work.IsAtomic b (fun _ => [.issued cmd]) counts

abbrev Fetches (b : Board) (work : RomJob UInt32) : Prop :=
  work.IsAtomic b (fun value => [.answered value]) id

variable {b : Board} {cmd : Rom.Command} {counts f : RomCounts → RomCounts}

namespace IsQuiet

theorem pure (a : α) : RomJob.IsQuiet b (Pure.pure a : RomJob α) := by
  intro s s' cycles out _ h
  obtain ⟨rfl, -, rfl⟩ := Routine.ends_pure.mp h
  exact ⟨.nil, rfl⟩

theorem bind {work : RomJob α} {next : α → RomJob β} (hwork : work.IsQuiet b)
    (hnext : ∀ a, (next a).IsQuiet b) : RomJob.IsQuiet b (work >>= next) := by
  intro s s' cycles out hs h
  obtain ⟨before, a, s₁, after, rfl, hfirst, hrest⟩ | ⟨e, rfl, hfirst⟩ | ⟨rfl, hfirst⟩ :=
    Routine.ends_bind.mp h
  · obtain ⟨hcarries, rfl⟩ := hwork hs hfirst
    obtain ⟨hcarries', rfl⟩ := hnext a hs hrest
    exact ⟨hcarries.append hcarries', rfl⟩
  · exact hwork hs hfirst
  · exact hwork hs hfirst

end IsQuiet

namespace Accounts

variable {work : RomJob α} {next : α → RomJob β}

theorem pure (a : α) : RomJob.Accounts b (Pure.pure a : RomJob α) := by
  intro s s' cycles out _ h
  obtain ⟨rfl, -, rfl⟩ := Routine.ends_pure.mp h
  exact ⟨[], .nil, rfl⟩

theorem fail (e : RomError) : RomJob.Accounts b (Routine.fail e : RomJob α) := by
  intro s s' cycles out _ h
  obtain ⟨rfl, -, rfl⟩ := Routine.ends_fail.mp h
  exact ⟨[], .nil, rfl⟩

theorem bind (hwork : work.Accounts b) (hnext : ∀ a, (next a).Accounts b) :
    RomJob.Accounts b (work >>= next) := by
  intro s s' cycles out hs h
  obtain ⟨before, a, s₁, after, rfl, hfirst, hrest⟩ | ⟨e, rfl, hfirst⟩ | ⟨rfl, hfirst⟩ :=
    Routine.ends_bind.mp h
  · obtain ⟨ts, hcarries, rfl⟩ := hwork hs hfirst
    -- Counting has not changed which board the session is with.
    obtain ⟨ts', hcarries', rfl⟩ :=
      hnext a (s := { s with counts := s.counts.plus ts }) hs hrest
    refine ⟨ts ++ ts', ?_, by rw [RomCounts.plus_append]⟩
    rw [List.flatMap_append]
    exact hcarries.append hcarries'
  · exact hwork hs hfirst
  · exact hwork hs hfirst

theorem get_bind {next : RomSession → RomJob β} (h : ∀ s, s.board = b → (next s).Accounts b) :
    RomJob.Accounts b (Routine.get >>= next) :=
  fun s _ _ _ hs hends => h s hs hs (Routine.ends_get_bind.mp hends)

theorem ite {p : Prop} [Decidable p] {work work' : RomJob α} (h : work.Accounts b)
    (h' : work'.Accounts b) : RomJob.Accounts b (if p then work else work') := by
  split
  · exact h
  · exact h'

theorem lift_bind {d : Exchange Unit} (hd : d.IsSilent) {next : Unit → RomJob β}
    (h : (next ()).Accounts b) :
    RomJob.Accounts b ((Routine.lift d : RomJob Unit) >>= next) :=
  fun _ _ _ _ hs hends => h hs (Routine.ends_lift_bind hd hends)

theorem remark_bind {remark : Remark} {next : Unit → RomJob β} (h : (next ()).Accounts b) :
    RomJob.Accounts b ((Job.remark remark : RomJob Unit) >>= next) :=
  fun _ _ _ _ hs hends => h hs (Job.ends_remark_bind hends)

theorem pause_bind {milliseconds : Nat} {next : Unit → RomJob β} (h : (next ()).Accounts b) :
    RomJob.Accounts b ((Job.pause milliseconds : RomJob Unit) >>= next) :=
  fun _ _ _ _ hs hends => h hs (Job.ends_pause_bind hends)

theorem attempt (h : work.Accounts b) :
    RomJob.Accounts b (work.attempt : RomJob (Except RomError α)) := by
  intro s s' cycles out hs hends
  obtain ⟨_, -, hwork⟩ | ⟨_, -, hwork⟩ | ⟨-, hwork⟩ := Routine.ends_attempt.mp hends
  · exact h hs hwork
  · exact h hs hwork
  · exact h hs hwork

end Accounts

/-! ### Counts that lag behind -/

theorem IsAtomic.quiet_bind {events : β → List RomEvent} {wait : RomJob α} {work : RomJob β}
    (hwait : wait.IsQuiet b) (hwork : work.IsAtomic b events counts) :
    RomJob.IsAtomic b events counts (wait >>= fun _ => work) := by
  constructor
  · intro s s' cycles a hs h
    obtain ⟨before, _, s₁, after, rfl, hfirst, hrest⟩ := Routine.ends_bind_ok.mp h
    obtain ⟨hpolls, rfl⟩ := hwait hs hfirst
    obtain ⟨hcarries, hstate⟩ := hwork.done hs hrest
    exact ⟨hpolls.append hcarries, hstate⟩
  · intro s s' cycles out hs h hout
    obtain ⟨before, _, s₁, after, rfl, hfirst, hrest⟩ | ⟨e, rfl, hfirst⟩ | ⟨rfl, hfirst⟩ :=
      Routine.ends_bind.mp h
    · obtain ⟨hpolls, rfl⟩ := hwait hs hfirst
      obtain ⟨hcarries, hstate⟩ := hwork.stopped hs hrest hout
      exact ⟨hpolls.append hcarries, hstate⟩
    · exact hwait hs hfirst
    · exact hwait hs hfirst

namespace Issues

variable {send : RomJob Unit} (hsend : send.Issues b cmd counts)
include hsend

theorem count (hcounts : ∀ c : RomCounts, f (counts c) = c.plus [⟨cmd, none⟩]) :
    RomJob.Accounts b (send >>= fun _ => RomSession.count f) := by
  intro s s' cycles out hs h
  obtain ⟨before, a, s₁, after, rfl, hissue, hcount⟩ | ⟨e, rfl, hissue⟩ | ⟨rfl, hissue⟩ :=
    Routine.ends_bind.mp h
  · obtain ⟨hcarries, rfl⟩ := hsend.done hs hissue
    obtain ⟨rfl, -, rfl⟩ := Routine.ends_modify.mp hcount
    refine ⟨[⟨cmd, none⟩], ?_, by rw [← hcounts]⟩
    rw [List.append_nil]
    exact hcarries
  · exact ⟨[], hsend.stopped hs hissue nofun⟩
  · exact ⟨[], hsend.stopped hs hissue nofun⟩

theorem count_bind {next : Unit → RomJob β}
    (hcounts : ∀ c : RomCounts, f (counts c) = c.plus [⟨cmd, none⟩])
    (hnext : (next ()).Accounts b) :
    RomJob.Accounts b (send >>= fun _ => RomSession.count f >>= next) := by
  have hboth := (hsend.count hcounts).bind fun _ => hnext
  rwa [bind_assoc] at hboth

theorem accounts (hcounts : ∀ c : RomCounts, counts c = c.plus [⟨cmd, none⟩]) :
    send.Accounts b := by
  have hcount := hsend.count (f := id) hcounts
  have hsame : (send >>= fun _ => RomSession.count id) = send := bind_pure send
  rwa [hsame] at hcount

theorem fetch_count {fetch : RomJob UInt32} (hfetch : fetch.Fetches b)
    (hnone : ∀ c : RomCounts, counts c = c.plus [⟨cmd, none⟩])
    (hsome : ∀ (c : RomCounts) value, f (counts c) = c.plus [⟨cmd, some value⟩]) :
    RomJob.Accounts b (send >>= fun _ => fetch >>= fun value =>
      RomSession.count f >>= fun _ => Pure.pure value) := by
  intro s s' cycles out hs h
  obtain ⟨before, a, s₁, after, rfl, hissue, hrest⟩ | ⟨e, rfl, hissue⟩ | ⟨rfl, hissue⟩ :=
    Routine.ends_bind.mp h
  · obtain ⟨hcarries, rfl⟩ := hsend.done hs hissue
    -- Counting has not changed which board the session is with.
    have hboard : { s with counts := counts s.counts }.board = b := hs
    have hstops : ∀ {last : List Access} {s' : RomSession}, b.Carries last [] ∧
        s' = { s with counts := counts s.counts } →
        b.Carries (before ++ last) ([⟨cmd, none⟩].flatMap Rom.Transaction.events) ∧
          s' = { s with counts := s.counts.plus [⟨cmd, none⟩] } := by
      rintro last s' ⟨hlast, rfl⟩
      exact ⟨hcarries.append hlast, by rw [← hnone]⟩
    obtain ⟨polls, value, s₂, last, rfl, hread, hcount⟩ | ⟨e, rfl, hread⟩ | ⟨rfl, hread⟩ :=
      Routine.ends_bind.mp hrest
    · obtain ⟨hanswer, rfl⟩ := hfetch.done hboard hread
      obtain ⟨rfl, -, rfl⟩ : last = [] ∧ _ := Routine.ends_pure.mp hcount
      refine ⟨[⟨cmd, some value⟩], ?_, congrArg _ (hsome s.counts value)⟩
      rw [List.append_nil]
      exact hcarries.append hanswer
    · exact ⟨_, hstops (hfetch.stopped hboard hread nofun)⟩
    · exact ⟨_, hstops (hfetch.stopped hboard hread nofun)⟩
  · exact ⟨[], hsend.stopped hs hissue nofun⟩
  · exact ⟨[], hsend.stopped hs hissue nofun⟩

theorem fetch {fetch : RomJob UInt32} (hfetch : fetch.Fetches b)
    (hcounts : ∀ (c : RomCounts) value?, counts c = c.plus [⟨cmd, value?⟩]) :
    RomJob.Accounts b (send >>= fun _ => fetch) := by
  have hcount := hsend.fetch_count (f := id) hfetch (fun c => hcounts c none) fun c value =>
    hcounts c (some value)
  have hsame : (fetch >>= fun value => RomSession.count id >>= fun _ => Pure.pure value) = fetch :=
    bind_pure fetch
  rwa [hsame] at hcount

end Issues
end RomJob

/-! ## What a board is asked -/

section Operations

variable {b : Board} {onTick : Exchange Unit} (hb : b.Fits)
include hb

namespace Board

theorem isQuiet_awaitReady (tries left : Nat) :
    RomJob.IsQuiet b (b.awaitReady tries left : RomJob Nat) := by
  induction left with
  | zero =>
      intro s s' cycles out _ h
      obtain ⟨rfl, -, rfl⟩ := Routine.ends_fail.mp h
      exact ⟨.nil, rfl⟩
  | succ left ih =>
      intro s s' cycles out hs h
      rw [awaitReady, engineReady, hb.read_eq (by decide), bind_assoc] at h
      obtain ⟨status, after, rfl, hrest⟩ := Job.ends_ask_bind h
      rw [pure_bind] at hrest
      split at hrest
      · obtain ⟨rfl, -, rfl⟩ := Routine.ends_pure.mp hrest
        exact ⟨.poll status .nil, rfl⟩
      · obtain ⟨hcarries, rfl⟩ := ih hs hrest
        exact ⟨.poll status hcarries, rfl⟩

theorem fetches_readback : RomJob.Fetches b (b.readback : RomJob UInt32) := by
  constructor
  · intro s s' cycles value _ h
    obtain ⟨rfl, rfl⟩ := ends_readback hb h
    exact ⟨.answer value .nil, rfl⟩
  · intro s s' cycles out _ h hout
    obtain ⟨value, -, rfl, -⟩ := ends_read hb (by decide) h
    exact absurd rfl (hout value)

theorem issues_issue (cmd : Rom.Command) : RomJob.Issues b cmd id (b.issue cmd) := by
  have hends : ∀ {s s' : RomSession} {cycles : List Access} {out : Outcome RomError Unit},
      (b.issue cmd : RomJob Unit).Ends s cycles out s' →
        cycles = b.frameCycles cmd ∧ out = .ok () ∧ s' = s := fun h =>
    ends_writeAll hb (fun _ hw => cmd.offset_le_of_mem_frame hw) (Job.ends_remark_bind h)
  constructor
  · intro s s' cycles _ _ h
    obtain ⟨rfl, -, rfl⟩ := hends h
    have hcarries : b.Carries (b.frameCycles cmd ++ []) [.issued cmd] := .command cmd .nil
    rw [List.append_nil] at hcarries
    exact ⟨hcarries, rfl⟩
  · intro s s' cycles out _ h hout
    exact absurd (hends h).2.1 (hout ())

theorem accounts_readStatus (readyTries : Nat) :
    RomJob.Accounts b (b.readStatus readyTries : RomJob UInt32) := by
  have hwait := isQuiet_awaitReady hb readyTries readyTries
  have hsend : RomJob.Issues b { opcode := .readStatus } id _ :=
    .quiet_bind hwait (issues_issue hb _)
  have hasked := hsend.fetch (.quiet_bind hwait (fetches_readback hb)) fun _ _ => rfl
  rwa [bind_assoc] at hasked

theorem accounts_awaitWrite (hticks : onTick.IsSilent) (readyTries interval tries left : Nat) :
    RomJob.Accounts b (b.awaitWrite readyTries interval onTick tries left : RomJob Nat) := by
  induction left with
  | zero => exact .fail _
  | succ left ih =>
      refine .bind (accounts_readStatus hb _) fun status => .ite ?_ (.remark_bind (.pure _))
      exact .lift_bind hticks (.pause_bind ih)

end Board

/-! ## What a session is asked -/

namespace RomSession

theorem isQuiet_waitReady : RomJob.IsQuiet b waitReady := by
  intro s s' cycles out hs h
  rw [waitReady, Routine.ends_get_bind, hs] at h
  exact RomJob.IsQuiet.bind (Board.isQuiet_awaitReady hb _ _) (fun _ => .pure ()) hs h

theorem issues_command (cmd : Rom.Command) :
    RomJob.Issues b cmd (RomCounts.closedBy · cmd) (command cmd) := by
  have hissue := Board.issues_issue hb cmd
  refine .quiet_bind (isQuiet_waitReady hb) ⟨?_, ?_⟩
  · intro s s' cycles _ hs h
    rw [Routine.ends_get_bind, hs] at h
    obtain ⟨before, _, s₁, after, rfl, hfirst, hcount⟩ := Routine.ends_bind_ok.mp h
    obtain ⟨hcarries, rfl⟩ := hissue.done hs hfirst
    split at hcount
    next hclosing =>
      obtain ⟨rfl, -, rfl⟩ := Routine.ends_modify.mp hcount
      rw [List.append_nil, RomCounts.closedBy, hclosing]
      exact ⟨hcarries, rfl⟩
    next hopen =>
      obtain ⟨rfl, -, rfl⟩ := Routine.ends_pure.mp hcount
      rw [List.append_nil, RomCounts.closedBy, Bool.eq_false_of_not_eq_true hopen]
      exact ⟨hcarries, rfl⟩
  · intro s s' cycles out hs h hout
    rw [Routine.ends_get_bind, hs] at h
    obtain ⟨before, _, s₁, after, rfl, -, hcount⟩ | ⟨e, rfl, hfirst⟩ | ⟨rfl, hfirst⟩ :=
      Routine.ends_bind.mp h
    · split at hcount
      · exact absurd (Routine.ends_modify.mp hcount).2.1 (hout ())
      · exact absurd (Routine.ends_pure.mp hcount).2.1 (hout ())
    · exact hissue.stopped hs hfirst nofun
    · exact hissue.stopped hs hfirst nofun

theorem accounts_command {cmd : Rom.Command}
    (hplain : cmd.opcode ∉ [.writeEnable, .pageProgram, .autoRead]) :
    RomJob.Accounts b (command cmd) :=
  (issues_command hb cmd).accounts fun c => (c.plus_of_plain hplain none).symm

theorem fetches_answer : RomJob.Fetches b (do waitReady; (← Routine.get).board.readback) := by
  refine .quiet_bind (isQuiet_waitReady hb) ⟨?_, ?_⟩
  · intro s s' cycles value hs h
    rw [Routine.ends_get_bind, hs] at h
    exact (Board.fetches_readback hb).done hs h
  · intro s s' cycles out hs h hout
    rw [Routine.ends_get_bind, hs] at h
    exact (Board.fetches_readback hb).stopped hs h hout

theorem accounts_readId : RomJob.Accounts b readId :=
  (issues_command hb _).fetch (fetches_answer hb) fun c value? =>
    (c.plus_of_plain (by decide) value?).symm

theorem accounts_readStatus : RomJob.Accounts b readStatus := by
  refine .get_bind fun s hs => ?_
  rw [hs]
  exact Board.accounts_readStatus hb _

theorem accounts_enableWrites : RomJob.Accounts b enableWrites := by
  refine (issues_command hb { opcode := .writeEnable }).count_bind (fun _ => rfl) ?_
  exact .bind (accounts_readStatus hb) fun status => .ite (.fail _) (.pure ())

theorem accounts_awaitWrite (hticks : onTick.IsSilent) (tries : Nat) :
    RomJob.Accounts b (awaitWrite tries onTick) := by
  refine .get_bind fun s hs => ?_
  rw [hs]
  exact Board.accounts_awaitWrite hb hticks _ _ _ _

theorem accounts_startErase : RomJob.Accounts b startErase :=
  .bind (accounts_enableWrites hb) fun _ => accounts_command hb (by decide)

theorem accounts_awaitErase (hticks : onTick.IsSilent) :
    RomJob.Accounts b (awaitErase onTick) := by
  refine .get_bind fun s _ => .bind (accounts_awaitWrite hb hticks _) fun polls => ?_
  exact .remark_bind (.pure polls)

theorem accounts_readWord (address : UInt32) (lastOfPage : Bool) :
    RomJob.Accounts b (readWord address lastOfPage) := by
  have hread := (issues_command hb (Board.readCommand address lastOfPage)).fetch_count
    (f := fun c => { c with wordsRead := c.wordsRead + 1 }) (fetches_answer hb)
    (fun c => by cases lastOfPage <;> rfl) (fun c value => by cases lastOfPage <;> rfl)
  have hsame : readWord address lastOfPage =
      (command (Board.readCommand address lastOfPage) >>= fun _ =>
        (do waitReady; (← Routine.get).board.readback) >>= fun word =>
          count (fun c => { c with wordsRead := c.wordsRead + 1 }) >>= fun _ => pure word) := by
    rw [readWord, query, bind_assoc]
    rfl
  rw [hsame]
  exact hread

theorem accounts_readWordsFrom (hticks : onTick.IsSilent) (index : Nat) (sofar : List UInt32)
    (count : Nat) : RomJob.Accounts b (readWordsFrom onTick index sofar count) := by
  induction count generalizing index sofar with
  | zero => exact .pure _
  | succ count ih =>
      refine .bind (accounts_readWord hb _ _) fun word => ?_
      exact .lift_bind hticks (ih (index + 1) (word :: sofar))

theorem accounts_putWord (address word : UInt32) (lastOfPage : Bool) :
    RomJob.Accounts b (putWord address word lastOfPage) := by
  have hissue := issues_command hb (Board.programCommand address word lastOfPage)
  cases lastOfPage with
  | false => exact hissue.count_bind (fun _ => rfl) (.pure ())
  | true =>
      have hwait : RomJob.Accounts b (do
          let _ ← awaitWrite (← Routine.get).budgets.pageTries Exchange.silent) :=
        .get_bind fun s _ =>
          .bind (accounts_awaitWrite hb Exchange.isSilent_silent _) fun _ => .pure ()
      -- Both counts behind the command are one.
      have hcount := hissue.count
        (f := fun c => { c with wordsWritten := c.wordsWritten + 1, pageWaits := c.pageWaits + 1 })
        fun _ => rfl
      have hboth := hcount.bind fun _ => hwait
      rw [bind_assoc] at hboth
      exact hboth

theorem accounts_writeWord (address word : UInt32) (lastOfPage : Bool) :
    RomJob.Accounts b (writeWord address word lastOfPage) := by
  have hput := accounts_putWord hb address word lastOfPage
  rw [writeWord_eq]
  exact .ite (.bind (accounts_enableWrites hb) fun _ => hput) hput

theorem accounts_writeWordsFrom (hticks : onTick.IsSilent) (index : Nat) (words : List UInt32) :
    RomJob.Accounts b (writeWordsFrom onTick index words) := by
  induction words generalizing index with
  | nil => exact .pure index
  | cons word rest ih =>
      refine .bind (accounts_writeWord hb _ _ _) fun _ => ?_
      exact .lift_bind hticks (ih (index + 1))

theorem accounts_program (hticks : onTick.IsSilent) (image : Image) :
    RomJob.Accounts b (program image onTick) := by
  rw [program]
  cases image.contents? with
  | none => exact .fail _
  | some words =>
      refine .ite (.fail _) (.bind (accounts_writeWordsFrom hb hticks 0 words) fun behind => ?_)
      exact accounts_writeWord hb _ _ _

theorem accounts_download (hticks : onTick.IsSilent) (into : Image) (sizeBytes : Nat) :
    RomJob.Accounts b
      ((download sizeBytes onTick).within (fun s => (s, into)) fun _ (s, _) => s) := by
  intro s s' cycles out hs h
  obtain ⟨⟨s₁, image⟩, hends, rfl⟩ := Routine.ends_within.mp h
  have hwords : ∀ {image : Image} {cycles : List Access} {out : Outcome RomError (List UInt32)}
      {p : RomSession × Image},
      ((readWords (sizeBytes / Rom.wordBytes) onTick).within
        (fun (s, _) => s) (fun (_, image) s => (s, image))).Ends (s, image) cycles out p →
      ∃ ts : List Rom.Transaction, b.Carries cycles (ts.flatMap Rom.Transaction.events) ∧
        p.1 = { s with counts := s.counts.plus ts } := by
    intro image cycles out p hwithin
    obtain ⟨s₂, hread, rfl⟩ := Routine.ends_within.mp hwithin
    exact accounts_readWordsFrom hb hticks 0 [] _ hs hread
  rw [download] at hends
  split at hends
  · obtain ⟨rfl, -, hstate⟩ := Routine.ends_fail.mp hends
    cases hstate
    exact ⟨[], .nil, rfl⟩
  · obtain ⟨before, words, p, after, rfl, hread, hfill⟩ | ⟨e, -, hread⟩ | ⟨-, hread⟩ :=
      Routine.ends_bind.mp (Routine.ends_modify_bind.mp hends)
    · obtain ⟨rfl, -, hstate⟩ := Routine.ends_modify.mp hfill
      cases hstate
      rw [List.append_nil]
      exact hwords hread
    · exact hwords hread
    · exact hwords hread

theorem Call.accounts_job (call : Call) : RomJob.Accounts b call.job := by
  have hticks := Exchange.isSilent_tick
  cases call with
  | readId => exact .bind (accounts_readId hb) fun _ => .pure ()
  | readStatus => exact .bind (accounts_readStatus hb) fun _ => .pure ()
  | enableWrites => exact accounts_enableWrites hb
  | disableWrites => exact accounts_command hb (by decide)
  | startErase => exact accounts_startErase hb
  | awaitErase => exact .bind (accounts_awaitErase hb hticks) fun _ => .pure ()
  | erase wait =>
      refine .bind (accounts_startErase hb) fun _ => .ite ?_ (.pure ())
      exact .bind (accounts_awaitErase hb hticks) fun _ => .pure ()
  | readWord address lastOfPage =>
      exact .bind (accounts_readWord hb address lastOfPage) fun _ => .pure ()
  | writeWord address word lastOfPage => exact accounts_writeWord hb address word lastOfPage
  | download into sizeBytes => exact accounts_download hb hticks into sizeBytes
  | program image => exact accounts_program hb hticks image

/-- However the calls end, each of them is followed by the next. -/
theorem accounts_calls (cs : List Call) : RomJob.Accounts b (calls cs) := by
  induction cs with
  | nil => exact .pure ()
  | cons call rest ih => exact .bind (call.accounts_job hb).attempt fun _ => ih

end RomSession
end Operations
end Reflash
