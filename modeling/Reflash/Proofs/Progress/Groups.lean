import Reflash.Progress.Console
/-!
# Groups of events, and what a console shows of them

The events of an update are lines on their own and groups. A group is one step of one board: its
beginning, its ticks, and its end, which is either that it is done or the lines of its failure. A
console shows each of these passages the same way wherever it stands, and leaves its line ended.
-/

namespace Reflash

structure Group where
  slot : Slot
  step : Step
  ticks : Nat
  /-- What the step failed for, unless it was done. -/
  cause? : Option RomError

namespace Group

def failure (g : Group) (cause : RomError) : StepFailure := ⟨g.slot, g.step, cause⟩

def events (g : Group) : List Event :=
  .began g.slot g.step :: (List.replicate g.ticks (.ticked g.slot g.step) ++
    g.cause?.elim [.done g.slot g.step] fun cause => (g.failure cause).events)

end Group

def ended (texts : List String) : String := String.join (texts.map (· ++ "\n"))

theorem ended_nil : ended [] = "" := String.join_nil

theorem ended_cons (text : String) (texts : List String) :
    ended (text :: texts) = text ++ "\n" ++ ended texts := String.join_cons

def pluses (n : Nat) : String := String.join (List.replicate n "+")

/-- The group as a console shows it: its title, a plus sign for every so many ticks, and its end. A
number of zero shows none. -/
def Group.text (prescale : Step → Nat) (g : Group) : String :=
  s!"slot {g.slot.column}: {g.step.name}" ++ " " ++ pluses (g.ticks / prescale g.step) ++
    g.cause?.elim " done\n" fun cause => "\n" ++ ended (g.failure cause).lines

inductive Passage where
  | line (slot : Slot) (step : Step) (text : String)
  | group (g : Group)

namespace Passage

def events : Passage → List Event
  | line slot step text => [.line slot step text]
  | group g => g.events

def text (prescale : Step → Nat) : Passage → String
  | line _ _ text => text ++ "\n"
  | group g => g.text prescale

end Passage

/-! ## The console -/

namespace Console

variable {c c' : Console} {events events' : List Event} {text text' : String} {slot : Slot}
  {step : Step}

/-- For these events the console prints this, and is in that state then. -/
def Prints (c : Console) (events : List Event) (text : String) (c' : Console) : Prop :=
  c.printAll events = (c', text)

theorem prints_nil : c.Prints [] "" c := rfl

theorem prints_singleton (c : Console) (e : Event) : c.Prints [e] (c.print e).2 (c.print e).1 :=
  Prod.ext rfl String.empty_append

theorem foldl_print (events : List Event) (c : Console) (before : String) :
    events.foldl (fun (c, text) e => let (c, more) := c.print e; (c, text ++ more)) (c, before) =
      ((c.printAll events).1, before ++ (c.printAll events).2) := by
  induction events generalizing c before with
  | nil => exact Prod.ext rfl String.append_empty.symm
  | cons e rest ih =>
      rw [printAll, List.foldl_cons, List.foldl_cons]
      dsimp only
      rw [ih, ih, String.empty_append, String.append_assoc]

theorem Prints.append (h : c.Prints events text c') {c'' : Console}
    (h' : c'.Prints events' text' c'') : c.Prints (events ++ events') (text ++ text') c'' := by
  unfold Prints at h h'
  rw [Prints, printAll, List.foldl_append, ← printAll, h, foldl_print, h']

theorem Prints.cons {e : Event} {shown : String} {c'' : Console}
    (hprint : c.print e = (c', shown)) (h : c'.Prints events text c'') :
    c.Prints (e :: events) (shown ++ text) c'' := by
  have hfirst := prints_singleton c e
  rw [hprint] at hfirst
  exact hfirst.append h

theorem prints_lines (hclosed : c.lineOpen = false) (texts : List String) :
    c.Prints (texts.map (Event.line slot step)) (ended texts) c := by
  induction texts with
  | nil => exact prints_nil
  | cons text rest ih =>
      have hprint : c.print (.line slot step text) = (c, text ++ "\n") := by
        obtain ⟨prescale, ticks, lineOpen⟩ := c
        obtain rfl : lineOpen = false := hclosed
        simp [print, Event.line]
      rw [List.map_cons, ended_cons]
      exact ih.cons hprint

/-- An open line is ended first. -/
theorem prints_lines_of_open (hopen : c.lineOpen = true) {texts : List String}
    (hsome : texts ≠ []) :
    c.Prints (texts.map (Event.line slot step)) ("\n" ++ ended texts)
      { c with lineOpen := false } := by
  obtain ⟨text, rest, rfl⟩ := List.exists_cons_of_ne_nil hsome
  have hprint : c.print (.line slot step text) =
      ({ c with lineOpen := false }, "\n" ++ (text ++ "\n")) := by
    simp [print, Event.line, hopen, String.append_assoc]
  have hrest : { c with lineOpen := false }.Prints (rest.map (Event.line slot step)) (ended rest)
      { c with lineOpen := false } := prints_lines rfl rest
  rw [List.map_cons, ended_cons, ← String.append_assoc]
  exact hrest.cons hprint

theorem pluses_succ (n : Nat) : pluses (n + 1) = pluses n ++ "+" := by
  rw [pluses, List.replicate_succ', String.join_append]
  rfl

/-- As long as the counter of the ticks does not run over, there is a plus sign for every so many of
them. -/
theorem prints_ticks (hfresh : c.ticks = 0) {n : Nat} (hn : n < UInt32.size) :
    c.Prints (List.replicate n (.ticked slot step)) (pluses (n / c.prescale step))
      { c with ticks := n.toUInt32 } := by
  induction n with
  | zero =>
      rw [Nat.zero_div]
      obtain ⟨prescale, ticks, lineOpen⟩ := c
      obtain rfl : ticks = 0 := hfresh
      exact prints_nil
  | succ n ih =>
      have hsucc : n.toUInt32 + 1 = (n + 1).toUInt32 := (UInt32.ofNat_add n 1).symm
      have hcount : (n + 1).toUInt32.toNat = n + 1 := UInt32.toNat_ofNat_of_lt' hn
      have hprint : ({ c with ticks := n.toUInt32 }).print (.ticked slot step) =
          ({ c with ticks := (n + 1).toUInt32 }, if c.prescale step ∣ n + 1 then "+" else "") := by
        have hshown : (c.prescale step ≠ 0 ∧ (n + 1) % c.prescale step = 0) =
            (c.prescale step ∣ n + 1) := by
          rw [Nat.dvd_iff_mod_eq_zero, eq_iff_iff, and_iff_right_iff_imp]
          intro hmod hzero
          rw [hzero, Nat.mod_zero] at hmod
          cases hmod
        simp only [print, Event.ticked, hsucc, hcount, hshown]
      have hlast := prints_singleton { c with ticks := n.toUInt32 } (.ticked slot step)
      rw [hprint] at hlast
      have hall := (ih (Nat.lt_of_succ_lt hn)).append hlast
      rw [List.replicate_succ', Nat.succ_div]
      split
      next hdvd =>
        rw [if_pos hdvd] at hall
        rw [pluses_succ]
        exact hall
      next hdvd =>
        rw [if_neg hdvd, String.append_empty] at hall
        exact hall

/-! ## Passages -/

/-- The console is between two passages: its line is ended, and it has this many ticks to a plus
sign in each step. -/
structure IsBetween (prescale : Step → Nat) (c : Console) : Prop where
  prescale_eq : c.prescale = prescale
  closed : c.lineOpen = false

variable {prescale : Step → Nat}

/-- A group is shown from its title to its end, and its ticks are counted afresh. -/
theorem prints_group (hbetween : c.IsBetween prescale) (g : Group)
    (hticks : g.ticks < UInt32.size) :
    ∃ c', c.Prints g.events (g.text prescale) c' ∧ c'.IsBetween prescale := by
  obtain rfl := hbetween.prescale_eq
  let begun : Console := { c with ticks := 0, lineOpen := true }
  let ticked : Console := { begun with ticks := g.ticks.toUInt32 }
  have hbegun : c.Prints [.began g.slot g.step]
      (s!"slot {g.slot.column}: {g.step.name}" ++ " ") begun := prints_singleton c _
  have hticked : begun.Prints (List.replicate g.ticks (.ticked g.slot g.step))
      (pluses (g.ticks / c.prescale g.step)) ticked := prints_ticks rfl hticks
  refine ⟨{ ticked with lineOpen := false }, ?_, rfl, rfl⟩
  have hclosed : ticked.Prints
      (g.cause?.elim [.done g.slot g.step] fun cause => (g.failure cause).events)
      (g.cause?.elim " done\n" fun cause => "\n" ++ ended (g.failure cause).lines)
      { ticked with lineOpen := false } := by
    cases g.cause? with
    | none => exact prints_singleton ticked _
    | some cause => exact prints_lines_of_open rfl (List.cons_ne_nil _ _)
  have hall := (hbegun.append hticked).append hclosed
  rwa [List.append_assoc] at hall

theorem prints_passage (hbetween : c.IsBetween prescale) (p : Passage)
    (hticks : ∀ g, p = .group g → g.ticks < UInt32.size) :
    ∃ c', c.Prints p.events (p.text prescale) c' ∧ c'.IsBetween prescale := by
  cases p with
  | line slot step text =>
      refine ⟨c, ?_, hbetween⟩
      have hline : c.Prints [.line slot step text] (ended [text]) c :=
        prints_lines hbetween.closed [text]
      rwa [ended_cons, ended_nil, String.append_empty] at hline
  | group g => exact prints_group hbetween g (hticks g rfl)

theorem prints_passages (hbetween : c.IsBetween prescale) (passages : List Passage)
    (hticks : ∀ g, .group g ∈ passages → g.ticks < UInt32.size) :
    ∃ c', c.Prints (passages.flatMap Passage.events)
      (String.join (passages.map (Passage.text prescale))) c' ∧ c'.IsBetween prescale := by
  induction passages generalizing c with
  | nil => exact ⟨c, prints_nil, hbetween⟩
  | cons p rest ih =>
      obtain ⟨c₁, hfirst, hbetween₁⟩ := prints_passage hbetween p fun g hg =>
        hticks g (hg ▸ List.mem_cons_self)
      obtain ⟨c', hrest, hbetween'⟩ := ih hbetween₁ fun g hg => hticks g (List.mem_cons_of_mem p hg)
      rw [List.flatMap_cons, List.map_cons, String.join_cons]
      exact ⟨c', hfirst.append hrest, hbetween'⟩

end Console

/-! ## Where lines begin -/

def EndsLine (text : String) : Prop := text = "" ∨ ∃ before, text = before ++ "\n"

theorem EndsLine.append {text text' : String} (h : EndsLine text) (h' : EndsLine text') :
    EndsLine (text ++ text') := by
  obtain rfl | ⟨before, rfl⟩ := h'
  · rwa [String.append_empty]
  · exact .inr ⟨text ++ before, String.append_assoc.symm⟩

theorem endsLine_join {texts : List String} (h : ∀ text ∈ texts, EndsLine text) :
    EndsLine (String.join texts) := by
  induction texts with
  | nil => exact .inl rfl
  | cons text rest ih =>
      obtain ⟨htext, hrest⟩ := List.forall_mem_cons.mp h
      rw [String.join_cons]
      exact htext.append (ih hrest)

theorem exists_ended_eq {texts : List String} (hsome : texts ≠ []) :
    ∃ before, ended texts = before ++ "\n" := by
  obtain ⟨rest, last, rfl⟩ := List.eq_nil_or_concat texts |>.resolve_left hsome
  refine ⟨ended rest ++ last, ?_⟩
  simp [ended, String.join_append, String.append_assoc]

theorem Passage.endsLine_text (prescale : Step → Nat) (p : Passage) :
    EndsLine (p.text prescale) := by
  cases p with
  | line slot step text => exact .inr ⟨text, rfl⟩
  | group g =>
      have hend : ∃ before, (g.cause?.elim " done\n" fun cause =>
          "\n" ++ ended (g.failure cause).lines) = before ++ "\n" := by
        cases g.cause? with
        | none => exact ⟨" done", rfl⟩
        | some cause =>
            have hsome : (g.failure cause).lines ≠ [] := List.cons_ne_nil _ _
            obtain ⟨before, hbefore⟩ := exists_ended_eq hsome
            exact ⟨"\n" ++ before, by rw [Option.elim_some, hbefore, String.append_assoc]⟩
      obtain ⟨before, hbefore⟩ := hend
      rw [Passage.text, Group.text, hbefore]
      exact .inr ⟨_, String.append_assoc.symm⟩

theorem endsLine_passages (prescale : Step → Nat) (passages : List Passage) :
    EndsLine (String.join (passages.map (Passage.text prescale))) := by
  refine endsLine_join fun text htext => ?_
  obtain ⟨p, -, rfl⟩ := List.mem_map.mp htext
  exact p.endsLine_text prescale

/-! ## Brackets -/

/-- A group as an update to an image of so many words tells it: a step that goes through the words
and is done has told a tick for each of them. The number of its ticks is a word, as budgets are. -/
structure Group.IsProper (words : Nat) (g : Group) : Prop where
  ticks_lt : g.ticks < UInt32.size
  ticks_eq : g.cause? = none → g.step ∈ [.program, .download, .verify] → g.ticks = words

/-- The events are lines on their own and groups, one behind the other. -/
def IsBracketed (words : Nat) (events : List Event) : Prop :=
  ∃ passages : List Passage, events = passages.flatMap Passage.events ∧
    ∀ g, .group g ∈ passages → g.IsProper words

section Brackets

variable {words : Nat} {events events' : List Event}

theorem isBracketed_nil : IsBracketed words [] := ⟨[], rfl, fun _ => nofun⟩

theorem IsBracketed.append (h : IsBracketed words events) (h' : IsBracketed words events') :
    IsBracketed words (events ++ events') := by
  obtain ⟨passages, rfl, hproper⟩ := h
  obtain ⟨passages', rfl, hproper'⟩ := h'
  refine ⟨passages ++ passages', List.flatMap_append.symm, fun g hg => ?_⟩
  exact (List.mem_append.mp hg).elim (hproper g) (hproper' g)

theorem isBracketed_line (slot : Slot) (step : Step) (text : String) :
    IsBracketed words [.line slot step text] :=
  ⟨[.line slot step text], rfl, fun _ hg => nomatch List.mem_singleton.mp hg⟩

theorem isBracketed_map {α : Type} {event : α → Event} (h : ∀ a, IsBracketed words [event a])
    (as : List α) : IsBracketed words (as.map event) := by
  induction as with
  | nil => exact isBracketed_nil
  | cons a rest ih => exact (h a).append ih

theorem isBracketed_group {g : Group} (hg : g.IsProper words) : IsBracketed words g.events := by
  refine ⟨[.group g], (List.append_nil _).symm, fun g' hg' => ?_⟩
  cases List.mem_singleton.mp hg'
  exact hg

end Brackets

end Reflash
