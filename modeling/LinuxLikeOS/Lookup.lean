/-
The two directory lookups.

`read_dentry_by_name` compares names by `strncmp` over the longer of the two lengths, cut
to the 32 bytes of the field; that is equality of the names, also for one that fills the
field and has no terminator. So the search finds the first slot with the name. It goes
through all 63 slots, while `read_dentry_by_index` stops at the image's own `dir_count`. The
two agree on a name unless it is left over in a slot behind the listed ones.
-/
import LinuxLikeOS.FileSys

set_option autoImplicit false

namespace LinuxLikeOS

/-! ## Names -/

/-- The name of an entry: the bytes of the field up to a terminator. -/
def entry_name (d : dentry_t) : List UInt8 :=
  ((List.range FILENAME_LEN).map d.filename).takeWhile (· ≠ 0)

/-- A name a caller can pass: one to 32 bytes. -/
structure FileName (name : List UInt8) : Prop where
  no_terminator : (0 : UInt8) ∉ name
  length_pos : 0 < name.length
  length_le : name.length ≤ FILENAME_LEN

instance (name : List UInt8) : Decidable (FileName name) :=
  decidable_of_iff ((0 : UInt8) ∉ name ∧ 0 < name.length ∧ name.length ≤ FILENAME_LEN)
    ⟨fun h => ⟨h.1, h.2.1, h.2.2⟩, fun h => ⟨h.1, h.2, h.3⟩⟩

/-- A prefix cut at the first byte that fails a test. -/
theorem takeWhile_map_range_eq {s : ℕ → UInt8} {N : ℕ} {l : List UInt8} (hl : l.length ≤ N)
    (hzero : (0 : UInt8) ∉ l) :
    ((List.range N).map s).takeWhile (· ≠ 0) = l ↔
      (∀ i (hi : i < l.length), s i = l[i]) ∧ (l.length < N → s l.length = 0) := by
  induction l generalizing s N with
  | nil =>
      cases N with
      | zero => simp
      | succ N =>
          rw [List.range_succ_eq_map, List.map_cons]
          by_cases h0 : s 0 = 0 <;> simp [h0]
  | cons c l ih =>
      cases N with
      | zero => simp at hl
      | succ N =>
          have hc : c ≠ 0 := fun h => hzero (h ▸ List.mem_cons_self)
          have hrest : (0 : UInt8) ∉ l := fun h => hzero (List.mem_cons_of_mem _ h)
          have hih := ih (s := fun i => s (i + 1)) (by simpa using hl) hrest
          rw [List.range_succ_eq_map, List.map_cons, List.map_map]
          -- the first bytes agree, and the rest do
          by_cases h0 : s 0 = 0
          · have hne : ¬ c = 0 := hc
            rw [List.takeWhile_cons_of_neg (by simpa using h0)]
            refine iff_of_false (by simp) fun h => ?_
            have hfirst := h.1 0 (Nat.succ_pos _)
            rw [h0] at hfirst
            exact hne hfirst.symm
          · rw [List.takeWhile_cons_of_pos (by simpa using h0), List.cons.injEq]
            rw [show s ∘ Nat.succ = fun i => s (i + 1) from rfl, hih]
            constructor
            · rintro ⟨hfirst, hall, hend⟩
              refine ⟨fun i hi => ?_, fun hlt => hend (by simpa using hlt)⟩
              cases i with
              | zero => exact hfirst
              | succ i => exact hall i (by simpa using hi)
            · rintro ⟨hall, hend⟩
              exact ⟨hall 0 (Nat.succ_pos _), fun i hi => hall (i + 1) (by simpa using hi),
                fun hlt => hend (by simpa using hlt)⟩

/-- What it means for an entry to have a name, byte by byte. -/
theorem entry_name_eq_iff {d : dentry_t} {name : List UInt8} (h : FileName name) :
    entry_name d = name ↔ (∀ i, i < name.length → d.filename i = c_str name i) ∧
      (name.length < FILENAME_LEN → d.filename name.length = 0) := by
  unfold entry_name
  rw [takeWhile_map_range_eq h.length_le h.no_terminator]
  refine and_congr_left fun _ => forall_congr' fun i => ?_
  constructor
  · intro hall hi
    rw [hall hi, c_str_eq hi]
  · intro hall hi
    rw [hall hi, c_str_eq hi]

/-! ## The comparison -/

theorem strlen_name {name : List UInt8} (h : FileName name) : strlen (c_str name) = name.length := by
  have hlen : FILENAME_LEN ≤ ADDRESS_SPACE := by decide
  exact strlen_c_str (Nat.le_trans h.length_le hlen) h.no_terminator

theorem compare_len_eq {cur : ℕ → UInt8} {name : List UInt8} (h : FileName name) :
    compare_len cur (c_str name) = min FILENAME_LEN (max (strlen cur) name.length) := by
  have hle := h.length_le
  unfold compare_len
  rw [strlen_name h]
  split
  · split <;> omega
  · omega

/-- **The comparison is equality of names.** -/
theorem strncmp_entry {d : dentry_t} {name : List UInt8} (h : FileName name) :
    strncmp d.filename (c_str name) (compare_len d.filename (c_str name)) = 0 ↔
      entry_name d = name := by
  have hle := h.length_le
  have hspace : FILENAME_LEN ≤ ADDRESS_SPACE := by decide
  have hbyte : ∀ i, i < name.length → c_str name i ≠ 0 := by
    intro i hi hz
    rw [c_str_eq hi] at hz
    exact h.no_terminator (hz ▸ List.getElem_mem hi)
  rw [strncmp_eq_zero_iff, compare_len_eq h, entry_name_eq_iff h]
  constructor
  · intro hcmp
    have hall : ∀ i, i < name.length → d.filename i = c_str name i := by
      intro i
      induction i using Nat.strongRecOn with
      | ind i ih =>
          intro hi
          refine hcmp i (by omega) fun j hj => ?_
          rw [ih j hj (by omega)]
          exact hbyte j (by omega)
    refine ⟨hall, fun hlt => ?_⟩
    -- a longer entry would differ where the name ends
    by_contra hend
    have hlong : name.length + 1 ≤ strlen d.filename := by
      apply le_strlen (by omega)
      intro i hi
      by_cases hin : i = name.length
      · rw [hin]
        exact hend
      · rw [hall i (by omega)]
        exact hbyte i (by omega)
    apply hend
    rw [hcmp name.length (by omega) fun j hj => by rw [hall j hj]; exact hbyte j hj]
    exact c_str_end (Nat.le_refl _)
  · rintro ⟨hall, hend⟩ i hi hbefore
    by_cases hin : i < name.length
    · exact hall i hin
    · -- the entry ends where the name does, and nothing is compared behind the two
      have hzero := hend (by omega)
      have hi : i = name.length := by
        by_contra hne
        exact hbefore name.length (by omega) hzero
      rw [hi, hzero, c_str_end (Nat.le_refl _)]

/-! ## The search -/

/-- The slot holds the name. -/
def slot_has (fs : file_sys) (name : List UInt8) (i : ℕ) : Prop :=
  entry_name (fs.boot_block.direntries i) = name

instance (fs : file_sys) (name : List UInt8) (i : ℕ) : Decidable (slot_has fs name i) :=
  inferInstanceAs (Decidable (_ = _))

theorem find_dentry_eq {fs : file_sys} {name : List UInt8} (h : FileName name) (n i : ℕ) :
    find_dentry fs (c_str name) n i
      = ((List.range' i n).find? fun j => slot_has fs name j).map fs.boot_block.direntries := by
  have hlen := strlen_name h
  have hle := h.length_le
  induction n generalizing i with
  | zero => rfl
  | succ n ih =>
      rw [find_dentry, if_neg (by omega), List.range'_succ]
      dsimp only
      by_cases hslot : slot_has fs name i
      · rw [if_pos ((strncmp_entry h).mpr hslot), List.find?_cons_of_pos (by simpa using hslot)]
        rfl
      · rw [if_neg fun hcmp => hslot ((strncmp_entry h).mp hcmp),
          List.find?_cons_of_neg (by simpa using hslot)]
        exact ih (i + 1)

/-- **The search by name returns the first of the 63 slots that holds the name.** -/
theorem read_dentry_by_name_eq {fs : file_sys} {name : List UInt8} (h : FileName name) :
    read_dentry_by_name fs (c_str name)
      = ((List.range DIR_ENTRIES).find? fun j => slot_has fs name j).map
          fs.boot_block.direntries := by
  have hpos := h.length_pos
  unfold read_dentry_by_name
  rw [strlen_name h, if_neg (by omega), find_dentry_eq h, List.range_eq_range']

/-- The search stops at the first of the slots that holds the name. -/
theorem find_slot_eq_some {fs : file_sys} {name : List UInt8} {i : ℕ} :
    (List.range DIR_ENTRIES).find? (fun j => slot_has fs name j) = some i ↔
      i < DIR_ENTRIES ∧ slot_has fs name i ∧ ∀ j, j < i → ¬ slot_has fs name j := by
  rw [List.find?_range_eq_some, List.mem_range, decide_eq_true_eq]
  simp only [Bool.not_eq_true', decide_eq_false_iff_not]
  exact and_left_comm

theorem find_slot_eq_none {fs : file_sys} {name : List UInt8} :
    (List.range DIR_ENTRIES).find? (fun j => slot_has fs name j) = none ↔
      ∀ i, i < DIR_ENTRIES → ¬ slot_has fs name i := by
  rw [List.find?_range_eq_none]
  simp only [Bool.not_eq_true', decide_eq_false_iff_not]

/-! ## Agreement -/

/-- The names a listing shows: `read_directory` takes entry after entry by index, from the
first on, until there is none. -/
def listed_names (fs : file_sys) : List (List UInt8) :=
  (List.range fs.boot_block.dir_count).filterMap fun i =>
    (read_dentry_by_index fs i).map entry_name

/-- The two lookups agree on a name: it is found when some index has it, and then as the
entry of the least such index. So the names that can be opened are the listed ones. -/
structure LookupsAgree (fs : file_sys) (name : List UInt8) : Prop where
  found_iff : (read_dentry_by_name fs (c_str name)).isSome = true ↔
    ∃ i, i < fs.boot_block.dir_count ∧ ∃ d, read_dentry_by_index fs i = some d ∧ entry_name d = name
  least : ∀ i d, read_dentry_by_index fs i = some d → entry_name d = name →
    (∀ j d', j < i → read_dentry_by_index fs j = some d' → entry_name d' ≠ name) →
    read_dentry_by_name fs (c_str name) = some d
  listed_iff : (read_dentry_by_name fs (c_str name)).isSome = true ↔ name ∈ listed_names fs

/-- No slot behind the listed ones holds the name, unless a listed one does too. -/
def NothingLeftOver (fs : file_sys) (name : List UInt8) : Prop :=
  ∀ i, i < DIR_ENTRIES → fs.boot_block.dir_count ≤ i → slot_has fs name i →
    ∃ j, j < fs.boot_block.dir_count ∧ slot_has fs name j

instance (fs : file_sys) (name : List UInt8) : Decidable (NothingLeftOver fs name) :=
  inferInstanceAs (Decidable (∀ i, i < DIR_ENTRIES → _))

theorem found_by_index_iff {fs : file_sys} {name : List UInt8} :
    (∃ i, i < fs.boot_block.dir_count ∧
        ∃ d, read_dentry_by_index fs i = some d ∧ entry_name d = name) ↔
      ∃ j, j < fs.boot_block.dir_count ∧ slot_has fs name j := by
  unfold read_dentry_by_index slot_has
  constructor
  · rintro ⟨i, hi, d, hd, hname⟩
    rw [if_pos hi, Option.some.injEq] at hd
    exact ⟨i, hi, hd ▸ hname⟩
  · rintro ⟨j, hj, hname⟩
    exact ⟨j, hj, _, if_pos hj, hname⟩

theorem mem_listed_names {fs : file_sys} {name : List UInt8} :
    name ∈ listed_names fs ↔ ∃ j, j < fs.boot_block.dir_count ∧ slot_has fs name j := by
  unfold listed_names
  rw [List.mem_filterMap, ← found_by_index_iff]
  refine exists_congr fun i => and_congr List.mem_range ?_
  rw [Option.map_eq_some_iff]

theorem found_by_name_iff {fs : file_sys} {name : List UInt8} (h : FileName name) :
    (read_dentry_by_name fs (c_str name)).isSome = true ↔ ∃ j, j < DIR_ENTRIES ∧ slot_has fs name j := by
  rw [read_dentry_by_name_eq h, Option.isSome_map, List.find?_isSome]
  refine exists_congr fun j => and_congr List.mem_range ?_
  rw [decide_eq_true_eq]

/-- A name that is left over is found by name and by no index. -/
theorem leftover_disagrees {fs : file_sys} {name : List UInt8} (h : FileName name) {i : ℕ}
    (hi : i < DIR_ENTRIES) (hslot : slot_has fs name i)
    (hlisted : ¬ ∃ j, j < fs.boot_block.dir_count ∧ slot_has fs name j) :
    ¬ LookupsAgree fs name := by
  intro hagree
  have hfound := (found_by_name_iff h).mpr ⟨i, hi, hslot⟩
  exact hlisted (found_by_index_iff.mp (hagree.found_iff.mp hfound))

/-- **The lookups agree on a name exactly when it is not left over behind the listed
entries.** -/
theorem lookups_agree_iff {fs : file_sys} {name : List UInt8} (h : FileName name)
    (hdir : fs.boot_block.dir_count ≤ DIR_ENTRIES) :
    LookupsAgree fs name ↔ NothingLeftOver fs name := by
  constructor
  · intro hagree i hi _ hslot
    by_contra hlisted
    exact leftover_disagrees h hi hslot hlisted hagree
  · intro hnone
    have hiff : (read_dentry_by_name fs (c_str name)).isSome = true ↔
        ∃ j, j < fs.boot_block.dir_count ∧ slot_has fs name j := by
      rw [found_by_name_iff h]
      constructor
      · rintro ⟨j, hj, hslot⟩
        by_cases hlt : j < fs.boot_block.dir_count
        · exact ⟨j, hlt, hslot⟩
        · exact hnone j hj (by omega) hslot
      · rintro ⟨j, hj, hslot⟩
        exact ⟨j, by omega, hslot⟩
    refine ⟨hiff.trans found_by_index_iff.symm, fun i d hd hname hleast => ?_,
      hiff.trans mem_listed_names.symm⟩
    -- the first slot of the search is the least index
    unfold read_dentry_by_index at hd hleast
    split at hd
    · rename_i hi
      rw [Option.some.injEq] at hd
      rw [read_dentry_by_name_eq h]
      have hslot : slot_has fs name i := by
        show entry_name (fs.boot_block.direntries i) = name
        rw [hd]
        exact hname
      have hfirst := find_slot_eq_some.mpr
        ⟨by omega, hslot, fun j hj => hleast j _ hj (if_pos (by omega))⟩
      rw [hfirst, Option.map_some, hd]
    · cases hd

/-- An image with the file "a", and the file "b" deleted behind it. -/
def leftover_fs : file_sys where
  boot_block := ⟨1, 1, fun i => ⟨c_str (if i = 0 then [0x61] else [0x62]), 2, 0⟩⟩
  inode := fun _ => ⟨0, fun _ => 0⟩
  data_block := fun _ _ => 0

/-- The listed file is looked up alike. -/
theorem lookups_agree_demo : LookupsAgree leftover_fs [0x61] :=
  (lookups_agree_iff (by decide) (by decide)).mpr (by decide +kernel)

/-- The deleted one is still found by its name. -/
theorem deleted_file_found :
    (read_dentry_by_name leftover_fs (c_str [0x62])).isSome = true ∧
      ¬ LookupsAgree leftover_fs [0x62] := by
  have hslot : slot_has leftover_fs [0x62] 1 := by decide
  have hlisted : ¬ ∃ j, j < leftover_fs.boot_block.dir_count ∧ slot_has leftover_fs [0x62] j := by
    decide
  exact ⟨(found_by_name_iff (by decide)).mpr ⟨1, by decide, hslot⟩,
    leftover_disagrees (by decide) (by decide) hslot hlisted⟩

/-! ## Any name -/

/-- `read_dentry_by_name` as it is called: the value returned, and the entry behind `dentry`,
which is stored to when one has been found. -/
def load_dentry (fs : file_sys) (fname : ℕ → UInt8) (dentry : dentry_t) : Int × dentry_t :=
  match read_dentry_by_name fs fname with
  | some found_dentry => (0, found_dentry)
  | none => (-1, dentry)

/-- The first of the slots that holds the name. -/
def FirstSlot (fs : file_sys) (name : List UInt8) (i : ℕ) : Prop :=
  i < DIR_ENTRIES ∧ slot_has fs name i ∧ ∀ j, j < i → ¬ slot_has fs name j

/-- The lookup of the name at `fname`: the first slot that holds it is copied out, and
without one, or for a name of no bytes or of too many, nothing is. What is copied out holds
the very name, not one it begins with or that begins with it. -/
structure LooksUp (fs : file_sys) (fname : ℕ → UInt8) : Prop where
  found : ∀ i dentry, 0 < (string_at fname).length → (string_at fname).length ≤ FILENAME_LEN →
    FirstSlot fs (string_at fname) i →
    load_dentry fs fname dentry = (0, fs.boot_block.direntries i)
  missing : ∀ dentry, (∀ i, i < DIR_ENTRIES → ¬ slot_has fs (string_at fname) i) →
    load_dentry fs fname dentry = (-1, dentry)
  refused : ∀ dentry, string_at fname = [] ∨ FILENAME_LEN < (string_at fname).length →
    load_dentry fs fname dentry = (-1, dentry)
  only : ∀ dentry d, load_dentry fs fname dentry = (0, d) → entry_name d = string_at fname

/-- Behind its terminator a name is not looked at. -/
theorem read_dentry_by_name_text (fs : file_sys) {fname : ℕ → UInt8}
    (h : strlen fname < ADDRESS_SPACE) :
    read_dentry_by_name fs fname = read_dentry_by_name fs (c_str (string_at fname)) := by
  have hlen : strlen (c_str (string_at fname)) = strlen fname := by
    rw [strlen_c_str (by rw [length_string_at]; omega) (zero_notMem_string_at h), length_string_at]
  have hcmp : ∀ (cur : ℕ → UInt8) n,
      strncmp cur fname n = 0 ↔ strncmp cur (c_str (string_at fname)) n = 0 := by
    intro cur n
    apply strncmp_text_iff
    intro i hbody
    apply c_str_string_at h
    by_contra hlt
    rcases strlen_cases fname with ⟨hend, -, -⟩ | hlong
    · exact hbody (strlen fname) (by omega) hend
    · omega
  have hfind : ∀ n i, find_dentry fs fname n i = find_dentry fs (c_str (string_at fname)) n i := by
    intro n
    induction n with
    | zero => exact fun _ => rfl
    | succ n ih =>
        intro i
        unfold find_dentry compare_len
        simp only [hlen, hcmp, ih]
  unfold read_dentry_by_name
  rw [hlen, hfind]

theorem read_dentry_by_name_long (fs : file_sys) {fname : ℕ → UInt8}
    (h : FILENAME_LEN < strlen fname) : read_dentry_by_name fs fname = none := by
  unfold read_dentry_by_name
  split
  · rfl
  · unfold find_dentry
    exact if_pos h

/-- A name of one to 32 bytes. -/
theorem read_dentry_by_name_fits {fs : file_sys} {fname : ℕ → UInt8}
    (hpos : 0 < (string_at fname).length) (hle : (string_at fname).length ≤ FILENAME_LEN) :
    read_dentry_by_name fs fname
      = ((List.range DIR_ENTRIES).find? fun j => slot_has fs (string_at fname) j).map
          fs.boot_block.direntries := by
  have hspace : FILENAME_LEN < ADDRESS_SPACE := by decide
  have hlt : strlen fname < ADDRESS_SPACE := by
    rw [length_string_at] at hle
    omega
  rw [read_dentry_by_name_text fs hlt,
    read_dentry_by_name_eq ⟨zero_notMem_string_at hlt, hpos, hle⟩]

/-- A name of no bytes, or of more than an entry holds, is not looked for. -/
theorem read_dentry_by_name_refused {fs : file_sys} {fname : ℕ → UInt8}
    (h : string_at fname = [] ∨ FILENAME_LEN < (string_at fname).length) :
    read_dentry_by_name fs fname = none := by
  have hlen := length_string_at fname
  rcases h with hempty | hlong
  · unfold read_dentry_by_name
    rw [hempty, List.length_nil] at hlen
    exact if_pos hlen.symm
  · exact read_dentry_by_name_long fs (by omega)

theorem name_fits_or_refused (fname : ℕ → UInt8) :
    (0 < (string_at fname).length ∧ (string_at fname).length ≤ FILENAME_LEN) ∨
      (string_at fname = [] ∨ FILENAME_LEN < (string_at fname).length) := by
  by_cases hempty : string_at fname = []
  · exact Or.inr (Or.inl hempty)
  · have hpos := List.length_pos_of_ne_nil hempty
    by_cases hle : (string_at fname).length ≤ FILENAME_LEN
    · exact Or.inl ⟨hpos, hle⟩
    · exact Or.inr (Or.inr (Nat.lt_of_not_le hle))

theorem read_dentry_by_name_missing {fs : file_sys} {fname : ℕ → UInt8}
    (hnone : ∀ i, i < DIR_ENTRIES → ¬ slot_has fs (string_at fname) i) :
    read_dentry_by_name fs fname = none := by
  rcases name_fits_or_refused fname with ⟨hpos, hle⟩ | hbad
  · rw [read_dentry_by_name_fits hpos hle, find_slot_eq_none.mpr hnone]
    rfl
  · exact read_dentry_by_name_refused hbad

/-- The entry that is found was in a slot with the very name. -/
theorem read_dentry_by_name_only {fs : file_sys} {fname : ℕ → UInt8} {d : dentry_t}
    (hfound : read_dentry_by_name fs fname = some d) : entry_name d = string_at fname := by
  rcases name_fits_or_refused fname with ⟨hpos, hle⟩ | hbad
  · rw [read_dentry_by_name_fits hpos hle, Option.map_eq_some_iff] at hfound
    obtain ⟨i, hi, rfl⟩ := hfound
    exact (find_slot_eq_some.mp hi).2.1
  · rw [read_dentry_by_name_refused hbad] at hfound
    cases hfound

/-- **The lookup by name**, of every name in every boot block. -/
theorem name_lookup (fs : file_sys) (fname : ℕ → UInt8) : LooksUp fs fname := by
  refine ⟨fun i dentry hpos hle hfirst => ?_, fun dentry hnone => ?_, fun dentry hbad => ?_,
    fun dentry d hd => ?_⟩
  · unfold load_dentry
    rw [read_dentry_by_name_fits hpos hle, find_slot_eq_some.mpr hfirst]
    rfl
  · unfold load_dentry
    rw [read_dentry_by_name_missing hnone]
  · unfold load_dentry
    rw [read_dentry_by_name_refused hbad]
  · unfold load_dentry at hd
    split at hd
    · rename_i found hfound
      obtain rfl : found = d := (Prod.mk.inj hd).2
      exact read_dentry_by_name_only hfound
    · exact absurd (Prod.mk.inj hd).1 (by decide)

end LinuxLikeOS
