import Reflash.Crate.Config
import Reflash.Toml.Decoding
import Reflash.Toml.Excerpt
/-!
# Crate descriptions

The form in which a crate is described: a document whose keys are those of a configuration, with
tables for the target version, the budgets and the timings.
-/

namespace Reflash

inductive DescriptionFault where
  | noDocument (cause : Toml.Fault)
  | badForm (cause : Toml.Located Toml.DecodeError)
  | senseless (cause : DescriptionError)

namespace DescriptionFault

def message : DescriptionFault → String
  | noDocument cause => cause.value.message
  | badForm cause => cause.value.message
  | senseless cause => cause.message

def report (text : String) : DescriptionFault → String
  | noDocument cause => Toml.excerpt text cause.span cause.value.message
  | badForm cause => Toml.excerpt text cause.span cause.value.message
  | senseless cause => cause.message

end DescriptionFault

namespace CrateDescription

open Toml

def word16 : Decoder Nat := Decoder.natural UInt16.size "u16"
def word32 : Decoder Nat := Decoder.natural UInt32.size "u32"
def word64 : Decoder Nat := Decoder.natural UInt64.size "u64"
def byteCount : Decoder Nat := Decoder.natural UInt64.size "usize"

def targetVersion : Decoder Version := fun v => do
  let (control, processing) ← Field.record "struct RawVersion"
    [.ofValue "control" word16 fun (_, p) n => (some n, p),
      .ofValue "processing" word16 fun (c, _) n => (c, some n)]
    ((none, none) : Option Nat × Option Nat) v
  return ⟨(← Field.required v.span "control" control).toUInt16,
    (← Field.required v.span "processing" processing).toUInt16⟩

def budgetChoices : Decoder BudgetChoices :=
  Field.record "struct RawBudgets"
    [.ofValue "ready-tries" word32 fun b n => { b with readyTries := some n },
      .ofValue "command-ready-tries" word32 fun b n => { b with commandReadyTries := some n },
      .ofValue "erase-tries" word32 fun b n => { b with eraseTries := some n },
      .ofValue "page-tries" word32 fun b n => { b with pageTries := some n },
      .ofValue "reboot-tries" word32 fun b n => { b with rebootTries := some n }]
    {}

def timingChoices : Decoder TimingChoices :=
  Field.record "struct RawTiming"
    [.ofValue "reset-settle-ms" word64 fun t n => { t with resetSettle := some n },
      .ofValue "write-poll-interval-ms" word64 fun t n => { t with writePollInterval := some n },
      .ofValue "reboot-settle-ms" word64 fun t n => { t with rebootSettle := some n },
      .ofValue "reboot-poll-interval-ms" word64 fun t n =>
        { t with rebootPollInterval := some n }]
    {}

/-- The description in a document. Faults of entries come in file order, and a missing target
version after them; it shows at the start of the document. -/
def ofTable (document : Table) : Decoded CrateDescription := do
  let blank : CrateDescription × Option Version := ({ target := ⟨0, 0⟩ }, none)
  let (d, target?) ← Field.ofEntries
    [.ofValue "device" Decoder.path fun (d, t) x => ({ d with device := some x }, t),
      .ofValue "slots" (Decoder.list word32) fun (d, t) x => ({ d with slots := x }, t),
      .ofValue "target-version" targetVersion fun (d, _) x => (d, some x),
      .ofValue "image-size-bytes" byteCount fun (d, t) x =>
        ({ d with imageSizeBytes := some x }, t),
      .ofValue "budgets" budgetChoices fun (d, t) x => ({ d with budgets := x }, t),
      .ofValue "timing" timingChoices fun (d, t) x => ({ d with timing := x }, t)]
    blank document
  return { d with target := ← Field.required (.point 0) "target-version" target? }

end CrateDescription

def CrateConfig.ofText (text : String) : Except DescriptionFault CrateConfig := do
  let document ← (Toml.read text).mapError .noDocument
  let d ← (CrateDescription.ofTable document).mapError .badForm
  d.check.mapError .senseless

end Reflash
