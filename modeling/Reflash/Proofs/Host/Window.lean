import Reflash.Host.Window
import Reflash.Proofs.Host.Files
/-!
# Windows on regular files

A regular file behind a window is a memory of bytes that grows: four bytes are written for a word,
and a read or a probe is answered by four bytes that are all there. What such a file has come to is
told by the requests alone, and so is the number of the reads that failed.
-/

namespace Reflash

def Bus.after {σ : Type} [Bus σ] (s : σ) (requests : List Request) : σ :=
  requests.foldl (fun s r => (Bus.handler r s).2) s

namespace Request

def byteFor? : Request → Nat → Option UInt8
  | write address value, offset =>
    if address.toNat ≤ offset then (BigEndian.bytes value)[offset - address.toNat]? else none
  | read _, _ | probe _, _ | pause _, _ | tick, _ | remark _, _ | report _, _ => none

def reach : Request → Nat
  | write address _ => address.toNat + 4
  | read _ | probe _ | pause _ | tick | remark _ | report _ => 0

/-- The request is a read that finds fewer than four bytes in a file of this size. -/
def isShort (size : Nat) : Request → Bool
  | read address => size < address.toNat + 4
  | write _ _ | probe _ | pause _ | tick | remark _ | report _ => false

end Request

namespace Host

/-! ## The content behind a window -/

namespace Content

def after (c : Content) : Request → Content
  | .write address value => c.setWord address.toNat value
  | .read _ | .probe _ | .pause _ | .tick | .remark _ | .report _ => c

theorem size_after (c : Content) (r : Request) : (c.after r).size = max c.size r.reach := by
  cases r with
  | write address value => exact c.size_setWord address.toNat value
  | read | probe | pause | tick | remark | report => exact (Nat.max_zero _).symm

theorem byteAt_after (c : Content) (r : Request) (offset : Nat) :
    (c.after r).byteAt offset = (r.byteFor? offset).getD (c.byteAt offset) := by
  cases r with
  | write address value => exact c.byteAt_patch address.toNat offset (BigEndian.bytes value)
  | read | probe | pause | tick | remark | report => rfl

theorem Holds.after {c : Content} {bytes : ByteArray} (h : c.Holds bytes) (r : Request) :
    (c.after r).Holds (c.after r).toBytes := by
  cases r with
  | write address value => exact h.setWord address.toNat value
  | read | probe | pause | tick | remark | report => exact ⟨rfl, h.blank⟩

theorem Holds.foldl_after {c : Content} {bytes : ByteArray} (h : c.Holds bytes)
    (past : List Request) :
    (past.foldl Content.after c).Holds (past.foldl Content.after c).toBytes := by
  induction past generalizing c bytes with
  | nil => exact ⟨rfl, h.blank⟩
  | cons r rest ih => exact ih (h.after r)

theorem size_foldl_after (c : Content) (past : List Request) :
    (past.foldl after c).size = past.foldl (fun size r => max size r.reach) c.size :=
  (List.foldl_hom size fun c r => (c.size_after r).symm).symm

theorem byteAt_foldl_after (c : Content) (past : List Request) (offset : Nat) :
    (past.foldl after c).byteAt offset =
      past.foldl (fun byte r => (r.byteFor? offset).getD byte) (c.byteAt offset) :=
  (List.foldl_hom (byteAt · offset) fun c r => (c.byteAt_after r offset).symm).symm

end Content

namespace Window

variable {files : Files} {w : Window} {place : Place} {path : String}

/-! ## Opening a window -/

theorem failures_openAt (h : openAt files path = .ok w) : w.failures = 0 := by
  obtain ⟨node, -, hnode⟩ := exists_of_bind_eq_ok h
  cases node <;> cases hnode <;> rfl

private theorem openAt_window (content : Content) :
    openAt (({} : Files).store ⟨.working, "window"⟩ content) "window" =
      .ok { path := "window", node := .regular ⟨.working, "window"⟩ } := by
  have hsplit : "window".splitOn "/" = ["window"] := by
    rw [String.splitOn, if_neg (by decide)]
    -- None of the six characters is a slash.
    iterate 6 rw [String.splitOnAux, if_neg (by decide +kernel), if_neg (by decide +kernel)]
    rw [String.splitOnAux, if_pos (by decide +kernel)]
    decide +kernel
  rw [openAt, Files.locate_store (Files.locate_new hsplit (by decide +kernel))]
  rfl

/-! ## One request -/

theorem cycle_eq (hnode : w.node = .regular place) (address : UInt32) :
    w.cycle files address =
      if address.toNat + 4 ≤ (files.content place).size then
        .ok ((files.content place).wordFrom address.toNat)
      else .error .endOfFile := by
  rw [cycle, hnode]
  dsimp only
  rw [Content.wordAt?_eq]
  by_cases hinside : address.toNat + 4 ≤ (files.content place).size
  · rw [if_pos hinside, if_pos hinside]
  · rw [if_neg hinside, if_neg hinside]

theorem read_eq (hnode : w.node = .regular place) (address : UInt32) :
    Bus.read (files, w) address =
      if address.toNat + 4 ≤ (files.content place).size then
        ((files.content place).wordFrom address.toNat, files, w)
      else (notDriven, files, w.fail) := by
  show ((w.read files address).1, files, (w.read files address).2) = _
  rw [read, cycle_eq hnode]
  by_cases hinside : address.toNat + 4 ≤ (files.content place).size
  · rw [if_pos hinside, if_pos hinside]
  · rw [if_neg hinside, if_neg hinside]

theorem write_eq (hnode : w.node = .regular place) (address value : UInt32) :
    Bus.write (files, w) address value =
      (files.store place ((files.content place).setWord address.toNat value), w) := by
  show w.write files address value = _
  rw [write, put, hnode]

theorem probe_eq (hnode : w.node = .regular place) (address : UInt32) :
    Bus.probe (files, w) address =
      (decide (address.toNat + 4 ≤ (files.content place).size), files, w) := by
  show (w.probe files address, files, w) = _
  rw [probe, cycle_eq hnode]
  by_cases hinside : address.toNat + 4 ≤ (files.content place).size
  · rw [if_pos hinside, decide_eq_true hinside]
  · rw [if_neg hinside, decide_eq_false hinside]

theorem read_write_self (hnode : w.node = .regular place) (address value : UInt32) :
    (Bus.read (Bus.write (files, w) address value) address).1 = value := by
  rw [write_eq hnode, read_eq hnode, Files.content_store, Content.size_setWord,
    if_pos (Nat.le_max_right ..), Content.wordFrom_setWord]

/-- A request changes the content of one file. The window counts it if it is a read that finds fewer
than four bytes. -/
theorem handler_regular (files : Files) (hnode : w.node = .regular place) (r : Request) :
    (Bus.handler r (files, w)).2.1.content place = (files.content place).after r ∧
      (Bus.handler r (files, w)).2.2.node = .regular place ∧
      (Bus.handler r (files, w)).2.2.failures =
        w.failures + (r.isShort (files.content place).size).toNat := by
  cases r with
  | read address =>
      rw [Bus.handler, read_eq hnode, Request.isShort]
      by_cases hinside : address.toNat + 4 ≤ (files.content place).size
      · rw [if_pos hinside, decide_eq_false (Nat.not_lt.mpr hinside)]
        exact ⟨rfl, hnode, rfl⟩
      · rw [if_neg hinside, decide_eq_true (Nat.lt_of_not_le hinside)]
        exact ⟨rfl, hnode, rfl⟩
  | write address value =>
      rw [Bus.handler, write_eq hnode]
      exact ⟨files.content_store place _, hnode, rfl⟩
  | probe address =>
      rw [Bus.handler, probe_eq hnode]
      exact ⟨rfl, hnode, rfl⟩
  | pause | tick | remark | report => exact ⟨rfl, hnode, rfl⟩

/-! ## Sequences of requests -/

/-- The number of reads among some requests that find fewer than four bytes. The file has this size
at first, and grows as far as the requests before a read reach. -/
def shortReads (size : Nat) : List Request → Nat
  | [] => 0
  | r :: rest => (r.isShort size).toNat + shortReads (max size r.reach) rest

theorem after_regular (files : Files) (hnode : w.node = .regular place) (past : List Request) :
    (Bus.after (files, w) past).1.content place =
        past.foldl Content.after (files.content place) ∧
      (Bus.after (files, w) past).2.node = .regular place ∧
      (Bus.after (files, w) past).2.failures =
        w.failures + shortReads (files.content place).size past := by
  induction past generalizing files w with
  | nil => exact ⟨rfl, hnode, rfl⟩
  | cons r rest ih =>
      obtain ⟨hcontent, hnode', hcount⟩ := handler_regular files hnode r
      obtain ⟨hrest, hlast, hcounts⟩ := ih (Bus.handler r (files, w)).2.1 hnode'
      rw [hcontent] at hrest hcounts
      rw [Content.size_after, hcount, Nat.add_assoc] at hcounts
      exact ⟨hrest, hlast, hcounts⟩

/-! ## The memory -/

/-- Whatever a regular file holds when a window on it is opened, and whatever has been asked of the
window since, each byte of the file is the last one that was written there, and the file ends where
it ended at first or where the farthest write did. A write puts the four bytes of its word, with
zeros in front of them if they lie behind the end, and changes nothing else. A read gives the word of four bytes, and a probe is
answered, if all four are there; otherwise the read gives what an idle bus reads as, and it is these
reads that the window has counted. -/
theorem is_big_endian_memory {initial : ByteArray} (hopen : openAt files path = .ok w)
    (hnode : w.node = .regular place) (hinitial : (files.content place).Holds initial)
    (past : List Request) :
    let s := Bus.after (files, w) past
    let bytes := (s.1.content place).toBytes
    (bytes.size = past.foldl (fun size r => max size r.reach) initial.size ∧
      ∀ i, BigEndian.byteAt bytes i =
        past.foldl (fun byte r => (r.byteFor? i).getD byte) (BigEndian.byteAt initial i)) ∧
    (∀ address value : UInt32,
      let written := Bus.write s address value
      (Bus.read written address).1 = value ∧
      (∀ i, (written.1.content place).toBytes[i]? =
        if address.toNat ≤ i ∧ i < address.toNat + 4 then
          (BigEndian.bytes value)[i - address.toNat]?
        else if i < bytes.size then bytes[i]?
        else if i < address.toNat then some 0
        else none) ∧
      (∀ other, other ≠ place → written.1.content other = s.1.content other) ∧
      written.2 = s.2) ∧
    (∀ address : UInt32,
      (Bus.read s address).2.1 = s.1 ∧
      (address.toNat + 4 ≤ bytes.size →
        (Bus.read s address).1.toNat =
          (BigEndian.byteAt bytes address.toNat).toNat * 16777216 +
            (BigEndian.byteAt bytes (address.toNat + 1)).toNat * 65536 +
            (BigEndian.byteAt bytes (address.toNat + 2)).toNat * 256 +
            (BigEndian.byteAt bytes (address.toNat + 3)).toNat) ∧
      (bytes.size < address.toNat + 4 → (Bus.read s address).1 = 0xFFFFFFFF)) ∧
    (∀ address : UInt32, Bus.probe s address = (decide (address.toNat + 4 ≤ bytes.size), s)) ∧
    s.2.failures = shortReads initial.size past := by
  intro s bytes
  obtain ⟨hcontent, hregular, hcount⟩ := after_regular files hnode past
  have hbytes : (s.1.content place).Holds bytes := by
    have hfold := hinitial.foldl_after past
    rwa [← hcontent] at hfold
  have hsize : (s.1.content place).size = bytes.size := hbytes.size_eq
  refine ⟨⟨?_, fun i => ?_⟩, fun address value => ?_, fun address => ?_, fun address => ?_, ?_⟩
  · rw [← hsize, ← hinitial.size_eq, ← Content.size_foldl_after, ← hcontent]
  · rw [← hbytes.byteAt_eq, ← hinitial.byteAt_eq, ← Content.byteAt_foldl_after, ← hcontent]
  · refine ⟨read_write_self hregular address value, fun i => ?_, fun other hother => ?_, ?_⟩
    · rw [write_eq hregular, Files.content_store]
      exact hbytes.getElem?_setWord address.toNat i value
    · rw [write_eq hregular]
      exact s.1.content_store_of_ne _ hother
    · rw [write_eq hregular]
  · rw [read_eq hregular, ← hsize]
    by_cases hinside : address.toNat + 4 ≤ (s.1.content place).size
    · rw [if_pos hinside]
      exact ⟨rfl, fun _ => hbytes.toNat_wordFrom address.toNat,
        fun hshort => absurd hinside (Nat.not_le.mpr hshort)⟩
    · rw [if_neg hinside]
      exact ⟨rfl, fun h => absurd h hinside, fun _ => rfl⟩
  · rw [probe_eq hregular, ← hsize]
  · rw [hcount, failures_openAt hopen, Nat.zero_add, hinitial.size_eq]

/-- A write across the end of four bytes makes them six. The two reads that find fewer than four of
these are counted, and the probe is not. -/
theorem is_big_endian_memory_grown :
    let place : Place := ⟨.working, "window"⟩
    let initial : ByteArray := ⟨#[0x12, 0x34, 0x56, 0x78]⟩
    let files := ({} : Files).store place (.ofBytes initial)
    let w : Window := { path := "window", node := .regular place }
    let s := Bus.after (files, w) [.write 2 0xAABBCCDD, .read 0x100, .probe 0x100, .read 3]
    openAt files "window" = .ok w ∧ (files.content place).Holds initial ∧
      (Bus.read s 1).1 = 0x34AABBCC ∧ Bus.probe s 3 = (false, s) ∧ s.2.failures = 2 ∧
      (Bus.read (Bus.write s 8 7) 8).1 = 7 ∧
      ((Bus.write s 8 7).1.content place).toBytes[6]? = some 0 := by
  intro place initial files w s
  have hopen : openAt files "window" = .ok w := openAt_window (.ofBytes initial)
  have hinitial : (files.content place).Holds initial := by
    rw [Files.content_store]
    exact Content.holds_ofBytes initial
  obtain ⟨⟨hsize, hbyte⟩, hwrite, hread, hprobe, hcount⟩ := is_big_endian_memory hopen rfl hinitial
    [.write 2 0xAABBCCDD, .read 0x100, .probe 0x100, .read 3]
  have hsix : (s.1.content place).toBytes.size = 6 := hsize
  refine ⟨hopen, hinitial, UInt32.toNat_inj.mp ?_, (hprobe 3).trans ?_, hcount, (hwrite 8 7).1,
    ((hwrite 8 7).2.1 6).trans ?_⟩
  · have hinside : (1 : UInt32).toNat + 4 ≤ (s.1.content place).toBytes.size := by
      rw [hsix]
      decide
    rw [(hread 1).2.1 hinside, hbyte, hbyte, hbyte, hbyte]
    decide
  · rw [hsix]
    rfl
  · rw [hsix]
    rfl

end Window
end Host
end Reflash
