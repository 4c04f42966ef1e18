import Reflash.Host.Files
import Reflash.Image
import Reflash.Proofs.Host.Content
/-!
# What is written to a file

A file that has been written as a whole reads as what was written, whatever its path leads through;
only a device can swallow it. A file of words reads as an image of those words, unless they are none
or too many.
-/

namespace Reflash

theorem exists_of_bind_eq_ok {ε α β : Type} {x : Except ε α} {f : α → Except ε β} {b : β}
    (h : x >>= f = .ok b) : ∃ a, x = .ok a ∧ f a = .ok b := by
  cases x with
  | ok a => exact ⟨a, rfl, h⟩
  | error e => cases h

theorem eq_ok_of_toOption {ε α : Type} {x : Except ε α} {a : α} (h : x.toOption = some a) :
    x = .ok a := by
  cases x with
  | ok b => exact congrArg Except.ok (Option.some.inj h)
  | error e => cases h

namespace Host

namespace Files

variable {f f' : Files} {place other : Place} {content : Content} {path : String}
  {creating slash : Bool} {d : Directory} {name : String}

/-! ## Entries of directories -/

/-- What is under a name is a directory or a device, whatever the files are, or it is up to the
files. -/
theorem entry?_cases (place : Place) :
    (∃ node, (∀ p, node ≠ .regular p) ∧ ∀ f : Files, f.entry? place = some node) ∨
      ∀ f : Files, f.entry? place =
        if f.contents.contains place then some (.regular place) else none := by
  by_cases hfixed : place ∈ [⟨.root, "dev"⟩, ⟨.root, "tmp"⟩, ⟨.devices, "null"⟩,
      (⟨.devices, "full"⟩ : Place)]
  · simp only [List.mem_cons, List.not_mem_nil, or_false] at hfixed
    rcases hfixed with rfl | rfl | rfl | rfl
    · exact .inl ⟨.directory .devices, nofun, fun _ => rfl⟩
    · exact .inl ⟨.directory .temporary, nofun, fun _ => rfl⟩
    · exact .inl ⟨.null, nofun, fun _ => rfl⟩
    · exact .inl ⟨.full, nofun, fun _ => rfl⟩
  · refine .inr fun f => ?_
    unfold entry?
    split <;> simp_all

theorem eq_of_entry?_regular {p : Place} (h : f.entry? place = some (.regular p)) :
    p = place := by
  obtain ⟨node, hnode, hentry⟩ | hentry := entry?_cases place
  · exact absurd (Option.some.inj ((hentry f).symm.trans h)) (hnode p)
  · rw [hentry] at h
    split at h
    next => cases h; rfl
    next => cases h

theorem entry?_store_of_directory (h : f.entry? other = some (.directory d)) :
    Files.entry? (f.store place content) other = some (.directory d) := by
  obtain ⟨node, -, hentry⟩ | hentry := entry?_cases other
  · rw [hentry, ← hentry f, h]
  · rw [hentry] at h
    split at h <;> cases h

theorem entry?_store_self (h : ∀ node, f.entry? place = some node → node = .regular place) :
    Files.entry? (f.store place content) place = some (.regular place) := by
  obtain ⟨node, hnode, hentry⟩ | hentry := entry?_cases place
  · exact absurd (h node (hentry f)) (hnode place)
  · rw [hentry, store, if_pos Std.HashMap.contains_insert_self]

theorem content_store (f : Files) (place : Place) (content : Content) :
    (f.store place content).content place = content := by
  rw [Files.content, store, Std.HashMap.getD_insert_self]

theorem content_store_of_ne (f : Files) (content : Content) (h : other ≠ place) :
    (f.store place content).content other = f.content other := by
  rw [Files.content, store, Std.HashMap.getD_insert, if_neg (by simpa using Ne.symm h),
    Files.content]

/-! ## Paths -/

theorem look_eq_ok {node? : Option Node} :
    f.look place = .ok node? ↔ place.name.utf8ByteSize ≤ maxName ∧ f.entry? place = node? := by
  rw [look]
  split
  next hlong => exact ⟨nofun, fun h => absurd hlong (Nat.not_lt.mpr h.1)⟩
  next hshort => simp [Nat.not_lt.mp hshort]

theorem enter_store {next : Directory} (h : f.enter d name = .ok next) :
    (f.store place content).enter d name = .ok next := by
  unfold enter at h ⊢
  cases hdots : byDots? d name with
  | some last =>
      rw [hdots] at h
      exact h
  | none =>
      rw [hdots] at h
      dsimp only at h ⊢
      obtain ⟨node?, hlook, hnode⟩ := exists_of_bind_eq_ok h
      obtain ⟨hshort, hentry⟩ := look_eq_ok.mp hlook
      match node? with
      | some (.directory which) =>
          have hstored : (f.store place content).look ⟨d, name⟩ = .ok (some (.directory which)) :=
            look_eq_ok.mpr ⟨hshort, entry?_store_of_directory hentry⟩
          rw [hstored]
          exact hnode
      | some (.regular _) | some .null | some .full | none => cases hnode

theorem arrive_store (h : f.arrive true slash d name = .ok (.regular place)) :
    (f.store place content).arrive false slash d name = .ok (.regular place) := by
  unfold arrive at h ⊢
  cases hdots : byDots? d name with
  | some last =>
      rw [hdots] at h
      cases h
  | none =>
      rw [hdots] at h
      dsimp only at h ⊢
      cases slash with
      | true => cases h
      | false =>
          obtain ⟨node?, hlook, hnode⟩ := exists_of_bind_eq_ok h
          obtain ⟨hshort, hentry⟩ := look_eq_ok.mp hlook
          have hplace : place = ⟨d, name⟩ ∧
              ∀ node, node? = some node → node = .regular place := by
            match node? with
            | some (.regular p) =>
                cases hnode
                exact ⟨eq_of_entry?_regular hentry, fun _ h => (Option.some.inj h).symm⟩
            | none =>
                cases hnode
                exact ⟨rfl, nofun⟩
            | some (.directory _) | some .null | some .full => cases hnode
          obtain ⟨rfl, hregular⟩ := hplace
          have hstored : (f.store ⟨d, name⟩ content).look ⟨d, name⟩ =
              .ok (some (.regular ⟨d, name⟩)) :=
            look_eq_ok.mpr ⟨hshort, entry?_store_self fun node hnode =>
              hregular node (hentry.symm.trans hnode)⟩
          rw [hstored]
          rfl

theorem walk_store {names : List String}
    (h : f.walk true slash d names = .ok (.regular place)) :
    (f.store place content).walk false slash d names = .ok (.regular place) := by
  induction names generalizing d with
  | nil => cases h
  | cons name rest ih =>
      cases rest with
      | nil => exact arrive_store h
      | cons name' rest =>
          have hstep : ∀ (g : Files) (creating : Bool),
              g.walk creating slash d (name :: name' :: rest) =
                g.enter d name >>= fun next => g.walk creating slash next (name' :: rest) :=
            fun _ _ => rfl
          rw [hstep] at h ⊢
          obtain ⟨next, henter, hwalk⟩ := exists_of_bind_eq_ok h
          rw [enter_store henter]
          exact ih hwalk

/-- Where a file was to be made, there is one once it has been written. -/
theorem locate_store (h : f.locate true path = .ok (.regular place)) :
    (f.store place content).locate false path = .ok (.regular place) := by
  unfold locate at h ⊢
  split
  next hnul => rw [if_pos hnul] at h; cases h
  next hnul =>
    rw [if_neg hnul] at h
    split
    next hempty => rw [if_pos hempty] at h; cases h
    next hempty =>
      rw [if_neg hempty] at h
      split
      next hlong => rw [if_pos hlong] at h; cases h
      next hlong =>
        rw [if_neg hlong] at h
        exact walk_store h

theorem locate_new (hname : name.splitOn "/" = [name])
    (hplain : name.toList.contains '\x00' = false ∧ name ≠ "" ∧ name.utf8ByteSize ≤ maxName ∧
      name.startsWith "/" = false ∧ name.endsWith "/" = false ∧ byDots? .working name = none) :
    ({} : Files).locate true name = .ok (.regular ⟨.working, name⟩) := by
  obtain ⟨hnul, hnonempty, hshort, hrelative, hslash, hdots⟩ := hplain
  have hpath : ¬maxPath < name.utf8ByteSize := by
    unfold maxName at hshort
    unfold maxPath
    omega
  have hcomponents : components name = [name] := by
    rw [components, hname]
    exact List.filter_cons_of_pos (decide_eq_true hnonempty)
  have hnothing : entry? {} ⟨.working, name⟩ = none :=
    if_neg (Bool.eq_false_iff.mp Std.HashMap.contains_empty)
  have hlook : ({} : Files).look ⟨.working, name⟩ = .ok none := look_eq_ok.mpr ⟨hshort, hnothing⟩
  have harrive : ({} : Files).arrive true false .working name = .ok (.regular ⟨.working, name⟩) := by
    rw [arrive, hdots]
    dsimp only
    rw [hlook]
    rfl
  rw [locate, if_neg (Bool.eq_false_iff.mp hnul), if_neg hnonempty, if_neg hpath, hrelative, hslash,
    hcomponents]
  exact harrive

theorem read_of_write (hwrite : f.write path content = .ok f') (hsize : content.size ≠ 0)
    (hdevice : f.locate true path ≠ .ok .null) : f'.read path = .ok content := by
  obtain ⟨node, hlocate, hnode⟩ := exists_of_bind_eq_ok hwrite
  cases node with
  | regular place =>
      cases hnode
      rw [read, locate_store hlocate]
      exact congrArg Except.ok (content_store f place content)
  | null => exact absurd hlocate hdevice
  | full =>
      dsimp only at hnode
      rw [if_neg hsize] at hnode
      cases hnode
  | directory which => cases hnode

end Files
end Host

namespace Image

/-- A file of words is read as those words, unless an image cannot be so large. -/
theorem ofFile_encode (path : String) {words : List UInt32} (h : 0 < words.length) :
    ofFile path (.ok (.ofBytes (BigEndian.encode words))) =
      if Rom.maxImageBytes < words.length * Rom.wordBytes then
        .error (.tooLarge (words.length * Rom.wordBytes) Rom.maxImageBytes)
      else .ok { contents? := some words, source? := some path } := by
  have hsize : (BigEndian.encode words).size = words.length * Rom.wordBytes :=
    BigEndian.size_encode words
  have hnonzero : words.length * Rom.wordBytes ≠ 0 := by
    unfold Rom.wordBytes
    omega
  have haligned : ¬words.length * Rom.wordBytes % Rom.wordBytes ≠ 0 := by
    rw [Nat.mul_mod_left]
    exact not_not_intro rfl
  rw [ofFile, ofContent_eq, Host.Content.toBytes_ofBytes, ofBytes, hsize, BigEndian.decode_encode,
    checkSize, if_neg hnonzero, if_neg haligned]
  split <;> rfl

theorem words_of_ofFile {path : String} {content : Except Host.OsError Host.Content}
    {image : Image} (h : ofFile path content = .ok image) :
    image.contents? = some image.words ∧ image.sizeBytes ≤ Rom.maxImageBytes := by
  cases content with
  | error cause => cases h
  | ok content =>
      obtain ⟨read, hread, heq⟩ := exists_of_bind_eq_ok h
      cases heq
      rw [ofContent_eq] at hread
      obtain ⟨_, hcheck, hwords⟩ := exists_of_bind_eq_ok hread
      cases hwords
      refine ⟨rfl, ?_⟩
      have hbytes : content.toBytes.size ≤ Rom.maxImageBytes := by
        unfold checkSize at hcheck
        split at hcheck
        · cases hcheck
        split at hcheck
        · cases hcheck
        split at hcheck
        next => cases hcheck
        next hfits => exact Nat.le_of_not_lt hfits
      have hcount : (BigEndian.decode content.toBytes).length = content.toBytes.size / 4 := by
        rw [BigEndian.decode, List.length_map, List.length_range]
      show (BigEndian.decode content.toBytes).length * 4 ≤ Rom.maxImageBytes
      omega

end Image
end Reflash
