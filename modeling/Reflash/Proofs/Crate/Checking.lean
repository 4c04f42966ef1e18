import Reflash.Crate.Config
import Reflash.Proofs.Registry
/-!
# What makes a crate's description good

A description is good if its list names different slots of the crate and the image size, where one
is given, is a size that can be read back. `AreSlots` is what is asked of the list, and the first
number that spoils it decides which error there is; the size is looked at only behind a good list.
-/

namespace Reflash

namespace Slot

theorem number_mem_map {slot : Slot} {slots : List Slot} :
    slot.number ∈ slots.map number ↔ slot ∈ slots := by
  rw [List.mem_map]
  constructor
  · rintro ⟨other, hother, heq⟩
    rwa [← number_inj heq]
  · exact fun h => ⟨slot, h, rfl⟩

end Slot

namespace CrateDescription

structure AreSlots (numbers : List Nat) : Prop where
  inCrate : ∀ n ∈ numbers, 1 ≤ n ∧ n ≤ slotCount
  distinct : numbers.Nodup

/-- What is wrong with a number behind those that are listed before it. -/
inductive Offends (before : List Nat) (n : Nat) : DescriptionError → Prop
  | noSlot (hn : ¬(1 ≤ n ∧ n ≤ slotCount)) : Offends before n (.badSlot (.outOfRange n))
  | repeated {slot : Slot} (hslot : slot.number = n) (hbefore : n ∈ before) :
      Offends before n (.listedTwice slot)

/-- The first number on the list that does not belong there is there for this reason. -/
def FirstOffence (numbers : List Nat) (cause : DescriptionError) : Prop :=
  ∃ before n after, numbers = before ++ n :: after ∧ AreSlots before ∧ Offends before n cause

variable {before numbers : List Nat} {n : Nat} {cause cause' : DescriptionError}

theorem Offends.not_areSlots (h : Offends before n cause) (after : List Nat) :
    ¬AreSlots (before ++ n :: after) := by
  intro hslots
  cases h with
  | noSlot hn => exact hn (hslots.inCrate n (by simp))
  | repeated hslot hbefore =>
      have hfresh := (List.nodup_append.mp hslots.distinct).2.2
      exact hfresh n hbefore n List.mem_cons_self rfl

theorem Offends.unique (h : Offends before n cause) (h' : Offends before n cause')
    (hbefore : AreSlots before) : cause = cause' := by
  cases h with
  | noSlot hn =>
      cases h' with
      | noSlot => rfl
      | repeated _ hlisted => exact absurd (hbefore.inCrate n hlisted) hn
  | repeated hslot hlisted =>
      cases h' with
      | noSlot hn => exact absurd (hbefore.inCrate n hlisted) hn
      | repeated hslot' => rw [Slot.number_inj (hslot.trans hslot'.symm)]

theorem FirstOffence.not_areSlots (h : FirstOffence numbers cause) : ¬AreSlots numbers := by
  obtain ⟨before, n, after, rfl, -, hoffends⟩ := h
  exact hoffends.not_areSlots after

theorem FirstOffence.unique (h : FirstOffence numbers cause) (h' : FirstOffence numbers cause') :
    cause = cause' := by
  obtain ⟨before, n, after, rfl, hgood, hoffends⟩ := h
  obtain ⟨before', n', after', heq, hgood', hoffends'⟩ := h'
  -- Behind an offence the list is good no more, so neither lies behind the other.
  obtain ⟨more, rfl, hrest⟩ | ⟨more, rfl, hrest⟩ := List.append_eq_append_iff.mp heq
  · cases more with
    | nil =>
        obtain ⟨rfl, -⟩ := List.cons.inj hrest
        rw [List.append_nil] at hoffends'
        exact hoffends.unique hoffends' hgood
    | cons _ more =>
        obtain ⟨rfl, -⟩ := List.cons.inj hrest
        exact absurd hgood' (hoffends.not_areSlots more)
  · cases more with
    | nil =>
        obtain ⟨rfl, -⟩ := List.cons.inj hrest
        rw [List.append_nil] at hoffends
        exact hoffends.unique hoffends' hgood'
    | cons _ more =>
        obtain ⟨rfl, -⟩ := List.cons.inj hrest
        exact absurd hgood (hoffends'.not_areSlots more)

/-! ## The check of the list -/

theorem AreSlots.append_singleton {slot : Slot} (h : AreSlots numbers)
    (hfresh : slot.number ∉ numbers) : AreSlots (numbers ++ [slot.number]) where
  inCrate n hn := by
    obtain hn | hn := List.mem_append.mp hn
    · exact h.inCrate n hn
    · rw [List.mem_singleton.mp hn]
      exact ⟨slot.one_le, slot.le_count⟩
  distinct := List.nodup_append.mpr ⟨h.distinct, List.pairwise_singleton _ _, fun n hn n' hn' heq =>
    hfresh (List.mem_singleton.mp hn' ▸ heq ▸ hn)⟩

/-- Behind good numbers, the list is worked off until a number offends. -/
theorem checkSlots_spec (found : List Slot) (hfound : AreSlots (found.map Slot.number))
    (numbers : List Nat) :
    match checkSlots found numbers with
    | .ok listed => listed.map Slot.number = found.map Slot.number ++ numbers ∧
        AreSlots (found.map Slot.number ++ numbers)
    | .error cause => ∃ before n after, numbers = before ++ n :: after ∧
        AreSlots (found.map Slot.number ++ before) ∧
        Offends (found.map Slot.number ++ before) n cause := by
  induction numbers generalizing found with
  | nil =>
      rw [checkSlots, List.append_nil]
      exact ⟨rfl, hfound⟩
  | cons n rest ih =>
      by_cases hn : 1 ≤ n ∧ n ≤ slotCount
      · obtain ⟨slot, rfl⟩ : ∃ slot : Slot, slot.number = n := ⟨⟨n, hn.1, hn.2⟩, rfl⟩
        rw [checkSlots, Slot.check_number]
        dsimp only
        by_cases hlisted : slot ∈ found
        · rw [if_pos (List.contains_iff_mem.mpr hlisted)]
          refine ⟨[], slot.number, rest, rfl, ?_, ?_⟩ <;> rw [List.append_nil]
          · exact hfound
          · exact .repeated rfl (Slot.number_mem_map.mpr hlisted)
        · rw [if_neg fun h => hlisted (List.contains_iff_mem.mp h)]
          have hnumbers : (found ++ [slot]).map Slot.number =
              found.map Slot.number ++ [slot.number] := List.map_append
          have hgood := hfound.append_singleton fun h => hlisted (Slot.number_mem_map.mp h)
          have hrest := ih (found ++ [slot]) (hnumbers ▸ hgood)
          simp only [hnumbers, List.append_assoc, List.singleton_append] at hrest
          cases hcheck : checkSlots (found ++ [slot]) rest with
          | ok listed =>
              rw [hcheck] at hrest
              exact hrest
          | error cause =>
              rw [hcheck] at hrest
              obtain ⟨before, n, after, rfl, hbefore, hoffends⟩ := hrest
              exact ⟨slot.number :: before, n, after, rfl, hbefore, hoffends⟩
      · rw [checkSlots, Slot.check_of_not_mem hn]
        refine ⟨[], n, rest, rfl, ?_, ?_⟩ <;> rw [List.append_nil]
        · exact hfound
        · exact .noSlot hn

theorem areSlots_nil : AreSlots [] := ⟨fun _ => nofun, List.nodup_nil⟩

theorem areSlots_of_checkSlots {listed : List Slot} (h : checkSlots [] numbers = .ok listed) :
    AreSlots numbers ∧ listed.map Slot.number = numbers := by
  have hspec := checkSlots_spec [] areSlots_nil numbers
  rw [h] at hspec
  exact hspec.symm

theorem firstOffence_of_checkSlots (h : checkSlots [] numbers = .error cause) :
    FirstOffence numbers cause := by
  have hspec := checkSlots_spec [] areSlots_nil numbers
  rw [h] at hspec
  exact hspec

/-! ## The check of the description -/

def IsSize (bytes : Nat) : Prop := bytes ≠ 0 ∧ bytes % Rom.wordBytes = 0 ∧ bytes ≤ Rom.capacity

instance (bytes : Nat) : Decidable (IsSize bytes) := inferInstanceAs (Decidable (_ ∧ _))

theorem isImageSize_iff {bytes : Nat} : isImageSize bytes = true ↔ IsSize bytes := by
  simp [isImageSize, IsSize, and_assoc]

theorem isImageSize_getD (d : CrateDescription) :
    isImageSize (d.imageSizeBytes.getD ({} : CrateConfig).update.imageSizeBytes) = true ↔
      ∀ bytes, d.imageSizeBytes = some bytes → IsSize bytes := by
  cases d.imageSizeBytes with
  | none =>
      refine iff_of_true ?_ nofun
      show isImageSize Rom.bitstreamBytes = true
      decide
  | some bytes =>
      rw [Option.getD_some, isImageSize_iff]
      exact ⟨fun h _ heq => Option.some.inj heq ▸ h, fun h => h bytes rfl⟩

/-- The configuration is the one that the description gives: the slots on its list, each once and in
ascending order, its target, and the standard values for whatever it leaves open. -/
structure Describes (d : CrateDescription) (config : CrateConfig) : Prop where
  mem_slots : ∀ slot, slot ∈ config.slots ↔ slot.number ∈ d.slots
  ascending : config.slots.Pairwise fun slot slot' => slot.number < slot'.number
  length_slots : config.slots.length = d.slots.length
  target : config.update.target = d.target
  device : config.device = d.device.getD ({} : CrateConfig).device
  imageSizeBytes : config.update.imageSizeBytes =
    d.imageSizeBytes.getD ({} : CrateConfig).update.imageSizeBytes
  readyTries : config.update.budgets.readyTries =
    d.budgets.readyTries.getD ({} : Budgets).readyTries
  commandReadyTries : config.update.budgets.commandReadyTries =
    d.budgets.commandReadyTries.getD ({} : Budgets).commandReadyTries
  eraseTries : config.update.budgets.eraseTries =
    d.budgets.eraseTries.getD ({} : Budgets).eraseTries
  pageTries : config.update.budgets.pageTries = d.budgets.pageTries.getD ({} : Budgets).pageTries
  rebootTries : config.update.budgets.rebootTries =
    d.budgets.rebootTries.getD ({} : Budgets).rebootTries
  resetSettle : config.update.timing.resetSettle =
    d.timing.resetSettle.getD ({} : Timing).resetSettle
  writePollInterval : config.update.timing.writePollInterval =
    d.timing.writePollInterval.getD ({} : Timing).writePollInterval
  rebootSettle : config.update.timing.rebootSettle =
    d.timing.rebootSettle.getD ({} : Timing).rebootSettle
  rebootPollInterval : config.update.timing.rebootPollInterval =
    d.timing.rebootPollInterval.getD ({} : Timing).rebootPollInterval

variable {d : CrateDescription} {config : CrateConfig}

theorem perm_filter_all {listed : List Slot} (hnodup : listed.Nodup) :
    (Slot.all.filter listed.contains).Perm listed := by
  refine (List.perm_ext_iff_of_nodup (Slot.nodup_all.filter _) hnodup).mpr fun slot => ?_
  rw [List.mem_filter, List.contains_iff_mem]
  exact and_iff_right (Slot.mem_all slot)

/-- The check of the list comes first, then that of the size. -/
theorem check_cases (d : CrateDescription) :
    (∃ cause, FirstOffence d.slots cause ∧ d.check = .error cause) ∨
      AreSlots d.slots ∧
        ((¬∀ bytes, d.imageSizeBytes = some bytes → IsSize bytes) ∧
            d.check = .error .badImageSize ∨
          (∀ bytes, d.imageSizeBytes = some bytes → IsSize bytes) ∧
            ∃ config, d.check = .ok config ∧ d.Describes config) := by
  rw [check]
  cases hlisted : checkSlots [] d.slots with
  | error cause => exact .inl ⟨cause, firstOffence_of_checkSlots hlisted, rfl⟩
  | ok listed =>
      obtain ⟨hslots, hnumbers⟩ := areSlots_of_checkSlots hlisted
      refine .inr ⟨hslots, ?_⟩
      rw [← isImageSize_getD]
      simp only [bind, Except.bind]
      cases isImageSize (d.imageSizeBytes.getD ({} : CrateConfig).update.imageSizeBytes) with
      | false => exact .inl ⟨Bool.false_ne_true, rfl⟩
      | true =>
          have hnodup : listed.Nodup :=
            List.Pairwise.of_map Slot.number (fun _ _ hne heq => hne (heq ▸ rfl))
              (hnumbers ▸ hslots.distinct)
          have hperm := perm_filter_all hnodup
          refine .inr ⟨rfl, _, rfl, fun slot => ?_, ?_, ?_, rfl, rfl, rfl, rfl, rfl, rfl, rfl, rfl,
            rfl, rfl, rfl, rfl⟩
          · rw [hperm.mem_iff, ← hnumbers, Slot.number_mem_map]
          · exact Slot.pairwise_all.filter _
          · rw [← hnumbers, List.length_map, hperm.length_eq]

theorem good_of_check (h : d.check = .ok config) :
    AreSlots d.slots ∧ (∀ bytes, d.imageSizeBytes = some bytes → IsSize bytes) ∧
      d.Describes config := by
  obtain ⟨_, -, herror⟩ | ⟨hslots, ⟨-, herror⟩ | ⟨hsize, config', hok, hdescribes⟩⟩ := check_cases d
  · cases h.symm.trans herror
  · cases h.symm.trans herror
  · cases h.symm.trans hok
    exact ⟨hslots, hsize, hdescribes⟩

/-- What a description is refused for. The size is reported only behind a good list. -/
theorem offence_of_check (h : d.check = .error cause) :
    FirstOffence d.slots cause ∨
      AreSlots d.slots ∧ cause = .badImageSize ∧
        ¬∀ bytes, d.imageSizeBytes = some bytes → IsSize bytes := by
  obtain ⟨_, hoffence, herror⟩ | ⟨hslots, ⟨hsize, herror⟩ | ⟨-, _, hok, -⟩⟩ := check_cases d
  · cases h.symm.trans herror
    exact .inl hoffence
  · cases h.symm.trans herror
    exact .inr ⟨hslots, rfl, hsize⟩
  · cases h.symm.trans hok

theorem exists_check_eq_ok_iff : (∃ config, d.check = .ok config) ↔
    AreSlots d.slots ∧ ∀ bytes, d.imageSizeBytes = some bytes → IsSize bytes := by
  refine ⟨fun ⟨_, h⟩ => ⟨(good_of_check h).1, (good_of_check h).2.1⟩, fun ⟨hslots, hsize⟩ => ?_⟩
  cases hcheck : d.check with
  | ok config => exact ⟨config, rfl⟩
  | error cause =>
      obtain hoffence | ⟨-, -, hbad⟩ := offence_of_check hcheck
      · exact absurd hslots hoffence.not_areSlots
      · exact absurd hsize hbad

theorem check_eq_error_iff : d.check = .error cause ↔
    FirstOffence d.slots cause ∨
      AreSlots d.slots ∧ cause = .badImageSize ∧
        ¬∀ bytes, d.imageSizeBytes = some bytes → IsSize bytes := by
  refine ⟨offence_of_check, fun h => ?_⟩
  cases hcheck : d.check with
  | ok config =>
      obtain ⟨hslots, hsize, -⟩ := good_of_check hcheck
      obtain hoffence | ⟨-, -, hbad⟩ := h
      · exact absurd hslots hoffence.not_areSlots
      · exact absurd hsize hbad
  | error cause' =>
      obtain hoffence | ⟨hslots, rfl, -⟩ := h <;>
        obtain hoffence' | ⟨hslots', rfl, -⟩ := offence_of_check hcheck
      · rw [hoffence.unique hoffence']
      · exact absurd hslots' hoffence.not_areSlots
      · exact absurd hslots hoffence'.not_areSlots
      · rfl

end CrateDescription
end Reflash
