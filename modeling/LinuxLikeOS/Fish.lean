/-
`fish.c`: two texts that alternate on the screen.

`add_frames` reads the two files at once, a character of each, and adds a record for every place where
one of them has something that is no blank. The file whose line ends first waits for the other one at
the line break, and the file that ends first waits at its end, where it is closed once more behind
every row. The places have locations of their own as long as no line is longer than the screen is wide, so
no record that is on the screen is refused, and its cell follows the schedule from then on.
-/
import LinuxLikeOS.Blinking
import LinuxLikeOS.Grep

set_option autoImplicit false

namespace LinuxLikeOS

open TextLines TextLayout

/-! ## The frames -/

/-- One `read` of a frame, for the variables `c0` and `eof0`, or `c1` and `eof1`. -/
def read_frame (fs : file_sys) (fd : Int) (c_at : ℕ) (c : UInt8) (eof : Int) (k : Kernel) :
    Option (UInt8 × Int × Kernel) :=
  if c ≠ END_OF_LINE then
    (call_read fs fd c_at (1 : ℕ) k).bind fun (num_bytes, bytes, k) =>
    if num_bytes = 0 then some (END_OF_LINE, 1, k) else some (bytes.getD 0 c, eof, k)
  else some (c, eof, k)

/-- The location for a row and a column. -/
def frame_location (row col : ℕ) : BitVec 16 := BitVec.ofNat 16 (row * 80 + col + 40)

/-- The record for two characters. `blink_struct` is a local variable, and its other fields are not
assigned. -/
def frame_blink (blink_struct : mp1_blink_struct) (c0 c1 : UInt8) (row col : ℕ) : mp1_blink_struct :=
  { blink_struct with
    on_char := if c0 = END_OF_LINE then SPACE_ASCII else c0
    off_char := if c1 = END_OF_LINE then SPACE_ASCII else c1
    location := frame_location row col
    on_length := 15, off_length := 15 }

/-- The variables of the two files. -/
structure frame_vars where
  c0 : UInt8
  c1 : UInt8
  eof0 : Int
  eof1 : Int

/-- `while (1)`, at column `col`. -/
def frame_row (fs : file_sys) (fd0 fd1 : Int) (c0_at c1_at : ℕ) (blink_struct : mp1_blink_struct)
    (row : ℕ) : ℕ → ℕ → frame_vars → Kernel → Blinkers → Option (frame_vars × Kernel × Blinkers)
  | 0, _, _, _, _ => none
  | fuel + 1, col, v, k, f =>
      (read_frame fs fd0 c0_at v.c0 v.eof0 k).bind fun (c0, eof0, k) =>
      (read_frame fs fd1 c1_at v.c1 v.eof1 k).bind fun (c1, eof1, k) =>
      if c0 = END_OF_LINE ∧ c1 = END_OF_LINE then some (⟨c0, c1, eof0, eof1⟩, k, f)
      else
        -- a blank and a line that has ended are not drawn, unless the other frame has something
        let f :=
          if (c0 ≠ SPACE_ASCII ∧ c0 ≠ END_OF_LINE) ∨ (c1 ≠ SPACE_ASCII ∧ c1 ≠ END_OF_LINE) then
            (mp1_ioctl_add (frame_blink blink_struct c0 c1 row col) f).2
          else f
        frame_row fs fd0 fd1 c0_at c1_at blink_struct row fuel (col + 1) ⟨c0, c1, eof0, eof1⟩ k f

/-- The end of a row, for one of the files. -/
def end_row (fd eof : Int) (k : Kernel) : Option (UInt8 × Kernel) :=
  if eof ≠ 0 then (call_close fd k).map fun (_, k) => (END_OF_LINE, k) else some (0x30, k)

/-- `while (eof0 == 0 || eof1 == 0)`, at row `row`. -/
def frame_rows (fs : file_sys) (fd0 fd1 : Int) (c0_at c1_at : ℕ) (blink_struct : mp1_blink_struct)
    (cols : ℕ) : ℕ → ℕ → frame_vars → Kernel → Blinkers → Option (Kernel × Blinkers)
  | 0, _, _, _, _ => none
  | fuel + 1, row, v, k, f =>
      if v.eof0 = 0 ∨ v.eof1 = 0 then
        (frame_row fs fd0 fd1 c0_at c1_at blink_struct row cols 0 v k f).bind fun (v, k, f) =>
        (end_row fd0 v.eof0 k).bind fun (c0, k) =>
        (end_row fd1 v.eof1 k).bind fun (c1, k) =>
        frame_rows fs fd0 fd1 c0_at c1_at blink_struct cols fuel (row + 1) ⟨c0, c1, v.eof0, v.eof1⟩ k f
      else some (k, f)

/-- `add_frames`; the program halts with the status when a frame cannot be opened. -/
def add_frames (fs : file_sys) (f0 f1 : ℕ → UInt8) (c0_at c1_at : ℕ) (blink_struct : mp1_blink_struct)
    (fuel : ℕ) (k : Kernel) (f : Blinkers) : Option (Except Int (Kernel × Blinkers)) :=
  (call_open fs f0 k).bind fun (fd0, k) =>
  if fd0 < 0 then some (.error (-1))
  else
    (call_open fs f1 k).bind fun (fd1, k) =>
    if fd1 < 0 then some (.error (-1))
    else (frame_rows fs fd0 fd1 c0_at c1_at blink_struct fuel fuel 0 ⟨0x30, 0x30, 0, 0⟩ k f).map .ok

/-! ## What they add -/

/-- A character that is there, and no blank. -/
def visible (c : Option UInt8) : Prop := c ≠ none ∧ c ≠ some SPACE_ASCII

instance (c : Option UInt8) : Decidable (visible c) := inferInstanceAs (Decidable (_ ∧ _))

/-- The record for what the two frames have at a place. -/
def place_blink (blink_struct : mp1_blink_struct) (c0 c1 : Option UInt8) (row col : ℕ) :
    Option mp1_blink_struct :=
  if visible c0 ∨ visible c1 then
    some (frame_blink blink_struct (c0.getD END_OF_LINE) (c1.getD END_OF_LINE) row col)
  else none

/-- The records of two lines, from a column on. -/
def row_blinks (blink_struct : mp1_blink_struct) (row col : ℕ) (line0 line1 : List UInt8) :
    List mp1_blink_struct :=
  (List.range (max line0.length line1.length)).filterMap fun i =>
    place_blink blink_struct line0[i]? line1[i]? row (col + i)

/-- The records of two texts, from a row on. -/
def frames_blinks (blink_struct : mp1_blink_struct) (row : ℕ) (rows0 rows1 : List (List UInt8)) :
    List mp1_blink_struct :=
  (List.range (max rows0.length rows1.length)).flatMap fun i =>
    row_blinks blink_struct (row + i) 0 (rows0.getD i []) (rows1.getD i [])

/-- What a text has at a place. -/
def char_at (rows : List (List UInt8)) (row col : ℕ) : Option UInt8 := (rows.getD row [])[col]?

/-- A text whose places have locations of their own. -/
structure Framed (lines : List (List UInt8)) : Prop where
  rows : lines.length ≤ 818
  cols : ∀ line ∈ lines, line.length ≤ 80

/-- They are added one after the other. -/
def add_all (bs : List mp1_blink_struct) (f : Blinkers) : Blinkers :=
  bs.foldl (fun f b => (mp1_ioctl_add b f).2) f

section

variable {blink_struct : mp1_blink_struct} {row col : ℕ} {line0 line1 : List UInt8}
  {rows0 rows1 : List (List UInt8)}

theorem add_all_append (bs bs' : List mp1_blink_struct) (f : Blinkers) :
    add_all (bs ++ bs') f = add_all bs' (add_all bs f) := List.foldl_append

/-- The first place of a row, and the rest. -/
theorem row_blinks_next (h : line0 ≠ [] ∨ line1 ≠ []) :
    row_blinks blink_struct row col line0 line1
      = (place_blink blink_struct line0.head? line1.head? row col).toList
        ++ row_blinks blink_struct row (col + 1) line0.tail line1.tail := by
  have hlen : max line0.length line1.length = max line0.tail.length line1.tail.length + 1 := by
    rw [← List.length_pos_iff, ← List.length_pos_iff] at h
    rw [List.length_tail, List.length_tail]
    omega
  unfold row_blinks
  rw [hlen, List.range_succ_eq_map, List.filterMap_cons, List.filterMap_map]
  have hrest : (fun i => place_blink blink_struct line0[i]? line1[i]? row (col + i)) ∘ Nat.succ
      = fun i => place_blink blink_struct line0.tail[i]? line1.tail[i]? row (col + 1 + i) := by
    funext i
    have hcol : col + i.succ = col + 1 + i := by omega
    unfold Function.comp
    dsimp only
    rw [hcol, List.getElem?_tail, List.getElem?_tail]
  rw [hrest, Nat.add_zero, List.head?_eq_getElem?, List.head?_eq_getElem?]
  cases place_blink blink_struct line0[0]? line1[0]? row col with
  | none => rfl
  | some b => rfl

theorem frames_blinks_next (h : rows0 ≠ [] ∨ rows1 ≠ []) :
    frames_blinks blink_struct row rows0 rows1
      = row_blinks blink_struct row 0 (rows0.headD []) (rows1.headD [])
        ++ frames_blinks blink_struct (row + 1) rows0.tail rows1.tail := by
  have hlen : max rows0.length rows1.length = max rows0.tail.length rows1.tail.length + 1 := by
    rw [← List.length_pos_iff, ← List.length_pos_iff] at h
    rw [List.length_tail, List.length_tail]
    omega
  unfold frames_blinks
  rw [hlen, List.range_succ_eq_map, List.flatMap_cons, List.flatMap_map]
  congr 1
  · cases rows0 <;> cases rows1 <;> rfl
  · congr 1
    funext i
    have hrow : row + i.succ = row + 1 + i := by omega
    rw [hrow]
    cases rows0 <;> cases rows1 <;> rfl

end

/-! ## Their locations -/

section

variable {blink_struct b : mp1_blink_struct} {c0 c1 : Option UInt8} {row col row' col' : ℕ}
  {line0 line1 : List UInt8} {rows rows0 rows1 : List (List UInt8)}

theorem frame_location_toNat (hrow : row < 818) (hcol : col < 80) :
    (frame_location row col).toNat = row * 80 + col + 40 := by
  unfold frame_location
  rw [BitVec.toNat_ofNat]
  exact Nat.mod_eq_of_lt (by omega)

theorem frame_location_inj (hrow : row < 818) (hcol : col < 80) (hrow' : row' < 818) (hcol' : col' < 80)
    (h : frame_location row col = frame_location row' col') : row = row' ∧ col = col' := by
  have hnat := congrArg BitVec.toNat h
  rw [frame_location_toNat hrow hcol, frame_location_toNat hrow' hcol'] at hnat
  omega

theorem place_blink_eq_some : place_blink blink_struct c0 c1 row col = some b ↔
    (visible c0 ∨ visible c1) ∧
      frame_blink blink_struct (c0.getD END_OF_LINE) (c1.getD END_OF_LINE) row col = b := by
  unfold place_blink
  split
  next h => rw [Option.some.injEq, and_iff_right h]
  next h => exact iff_of_false nofun fun hand => h hand.1

theorem place_blink_location (h : place_blink blink_struct c0 c1 row col = some b) :
    b.location = frame_location row col := by
  rw [← (place_blink_eq_some.mp h).2]
  rfl

theorem Framed.length_getD (h : Framed rows) (row : ℕ) : (rows.getD row []).length ≤ 80 := by
  by_cases hrow : row < rows.length
  · rw [List.getD_eq_getElem _ _ hrow]
    exact h.cols _ (List.getElem_mem hrow)
  · rw [List.getD_eq_default _ _ (Nat.not_lt.mp hrow)]
    exact Nat.zero_le 80

/-- A place where something is. -/
theorem visible.lt (h : visible (char_at rows row col)) :
    row < rows.length ∧ col < (rows.getD row []).length := by
  have hcol : col < (rows.getD row []).length := by
    apply Nat.lt_of_not_ge
    intro hge
    exact h.1 (List.getElem?_eq_none hge)
  refine ⟨?_, hcol⟩
  apply Nat.lt_of_not_ge
  intro hge
  rw [List.getD_eq_default _ _ hge] at hcol
  exact absurd hcol (Nat.not_lt_zero _)

theorem mem_row_blinks : b ∈ row_blinks blink_struct row 0 line0 line1 ↔
    ∃ col < max line0.length line1.length,
      place_blink blink_struct line0[col]? line1[col]? row col = some b := by
  unfold row_blinks
  rw [List.mem_filterMap]
  simp only [Nat.zero_add, List.mem_range]

theorem mem_frames_blinks : b ∈ frames_blinks blink_struct 0 rows0 rows1 ↔
    ∃ row col, place_blink blink_struct (char_at rows0 row col) (char_at rows1 row col) row col
      = some b := by
  unfold frames_blinks
  simp only [List.mem_flatMap, List.mem_range, Nat.zero_add, mem_row_blinks]
  constructor
  · rintro ⟨row, -, col, -, h⟩
    exact ⟨row, col, h⟩
  · rintro ⟨row, col, h⟩
    -- a place with a record is one of a text
    have hplace : row < max rows0.length rows1.length ∧
        col < max (rows0.getD row []).length (rows1.getD row []).length := by
      rcases (place_blink_eq_some.mp h).1 with hvisible | hvisible
      · exact ⟨lt_max_of_lt_left hvisible.lt.1, lt_max_of_lt_left hvisible.lt.2⟩
      · exact ⟨lt_max_of_lt_right hvisible.lt.1, lt_max_of_lt_right hvisible.lt.2⟩
    exact ⟨row, hplace.1, col, hplace.2, h⟩

/-- **No two of the records are at one location.** -/
theorem frames_blinks_apart (h0 : Framed rows0) (h1 : Framed rows1) :
    (frames_blinks blink_struct 0 rows0 rows1).Pairwise fun b b' => b.location ≠ b'.location := by
  have hrows : ∀ {row}, row ∈ List.range (max rows0.length rows1.length) → row < 818 := by
    intro row hrow
    exact Nat.lt_of_lt_of_le (List.mem_range.mp hrow) (max_le h0.rows h1.rows)
  have hcols : ∀ {row col}, col < max (rows0.getD row []).length (rows1.getD row []).length →
      col < 80 := by
    intro row col hcol
    exact Nat.lt_of_lt_of_le hcol (max_le (h0.length_getD row) (h1.length_getD row))
  unfold frames_blinks
  simp only [Nat.zero_add]
  refine List.pairwise_flatMap.mpr ⟨fun row hrow => ?_, ?_⟩
  · unfold row_blinks
    refine List.pairwise_filterMap.mpr (List.pairwise_lt_range.imp_of_mem ?_)
    intro col col' hcol hcol' hlt b hb b' hb' heq
    rw [Nat.zero_add] at hb hb'
    rw [place_blink_location hb, place_blink_location hb'] at heq
    have hsame := frame_location_inj (hrows hrow) (hcols (List.mem_range.mp hcol)) (hrows hrow)
      (hcols (List.mem_range.mp hcol')) heq
    omega
  · refine List.pairwise_lt_range.imp_of_mem ?_
    intro row row' hrow hrow' hlt b hb b' hb' heq
    obtain ⟨col, hcol, hplace⟩ := mem_row_blinks.mp hb
    obtain ⟨col', hcol', hplace'⟩ := mem_row_blinks.mp hb'
    rw [place_blink_location hplace, place_blink_location hplace'] at heq
    have hsame := frame_location_inj (hrows hrow) (hcols hcol) (hrows hrow') (hcols hcol') heq
    omega

end

/-! ## Reading them -/

/-- The bytes of a file that are still to be read. -/
def rest_of (fs : file_sys) (inode_num pos : ℕ) : List UInt8 :=
  file_bytes fs (fs.inode inode_num) pos ((fs.inode inode_num).length - pos)

/-- A frame that is being read: of the line that has been begun, `line` is left, and the lines behind
it are `more`. When the line has ended, the variable of the character says so. -/
inductive Reading (fs : file_sys) (fd : Int) (inode_num : ℕ) (k : Kernel) :
    UInt8 → Int → List UInt8 → List (List UInt8) → Prop
  | inside {c : UInt8} {pos : ℕ} {line : List UInt8} {more : List (List UInt8)}
      (hc : c ≠ END_OF_LINE) (file : FileAt fd inode_num pos k)
      (hpos : pos ≤ (fs.inode inode_num).length)
      (lines : (rest_of fs inode_num pos).splitOn END_OF_LINE = line :: more) :
      Reading fs fd inode_num k c 0 line more
  | line_end {pos : ℕ} {more : List (List UInt8)} (file : FileAt fd inode_num pos k)
      (hpos : pos ≤ (fs.inode inode_num).length)
      (lines : (rest_of fs inode_num pos).splitOn END_OF_LINE = more) :
      Reading fs fd inode_num k END_OF_LINE 0 [] more
  | file_end (closable : (∃ pos, FileAt fd inode_num pos k) ∨ ¬ (named_fd k fd).in_use) :
      Reading fs fd inode_num k END_OF_LINE 1 [] []

section

variable {fs : file_sys} {fd : Int} {inode_num pos : ℕ} {k k' : Kernel} {c : UInt8} {eof : Int}
  {line : List UInt8} {more : List (List UInt8)} {sheet : Sheet UInt8}

/-- What happens to another descriptor. -/
theorem Reading.same (h : Reading fs fd inode_num k c eof line more)
    (hfd : named_fd k' fd = named_fd k fd) : Reading fs fd inode_num k' c eof line more := by
  cases h with
  | inside hc file hpos lines => exact .inside hc (file.same hfd) hpos lines
  | line_end file hpos lines => exact .line_end (file.same hfd) hpos lines
  | file_end closable =>
      refine .file_end ?_
      rcases closable with ⟨pos, file⟩ | hclosed
      · exact Or.inl ⟨pos, file.same hfd⟩
      · rw [← hfd] at hclosed
        exact Or.inr hclosed

theorem OnlyFd.refl (i : ℕ) (k : Kernel) : OnlyFd i k k := ⟨rfl, rfl, rfl, fun _ _ => rfl⟩

theorem rest_of_lt (fs : file_sys) (h : pos < (fs.inode inode_num).length) :
    ∃ c, file_bytes fs (fs.inode inode_num) pos 1 = [c] ∧
      rest_of fs inode_num pos = c :: rest_of fs inode_num (pos + 1) := by
  have hnext := file_bytes_next fs (fs.inode inode_num) pos 1
  have hone : min 1 ((fs.inode inode_num).length - pos) = 1 := by omega
  rw [hone] at hnext
  exact ⟨_, rfl, hnext⟩

/-- **The next character.** It is that of the line, or the line has ended. -/
theorem Reading.read (h : Reading fs fd inode_num k c eof line more) (hout : Stdout k sheet)
    (hino : inode_num < fs.boot_block.inode_count)
    (hsize : (fs.inode inode_num).length + 1 < 2147483648) (c_at : ℕ) :
    ∃ eof' k', read_frame fs fd c_at c eof k = some (line.headD END_OF_LINE, eof', k') ∧
      Reading fs fd inode_num k' (line.headD END_OF_LINE) eof' line.tail more ∧
      (line.head? ≠ some END_OF_LINE) ∧ Stdout k' sheet ∧ OnlyFd fd.toNat k k' := by
  cases h with
  | line_end file hpos lines =>
      exact ⟨0, k, if_neg (not_not.mpr rfl), .line_end file hpos lines, nofun, hout, .refl _ k⟩
  | file_end closable =>
      exact ⟨1, k, if_neg (not_not.mpr rfl), .file_end closable, nofun, hout, .refl _ k⟩
  | @inside _ pos _ _ hc file hpos lines =>
      obtain ⟨k', hread, hfile, hout', hkeep⟩ := file.next (n := 1) hout hino (by omega) c_at
      unfold read_frame
      rw [if_pos hc, hread, Option.bind_some]
      dsimp only
      by_cases hlt : pos < (fs.inode inode_num).length
      · have hone : min 1 ((fs.inode inode_num).length - pos) = 1 := by omega
        obtain ⟨x, hbyte, hrest⟩ := rest_of_lt fs hlt
        rw [hrest, List.splitOn_cons_eq_if_modifyHead] at lines
        rw [hone, hbyte, if_neg (by decide)]
        by_cases hx : x = END_OF_LINE
        -- the end of the line has been read, and that is no character of it
        · rw [if_pos (beq_iff_eq.mpr hx)] at lines
          obtain ⟨rfl, hmore⟩ := List.cons.inj lines
          refine ⟨0, k', ?_, ?_, nofun, hout', hkeep⟩
          · rw [hx]
            rfl
          · exact .line_end hfile (by omega) hmore
        · rw [if_neg fun heq => hx (beq_iff_eq.mp heq)] at lines
          obtain ⟨l, ls, hl⟩ := List.exists_cons_of_ne_nil
            (List.splitOn_ne_nil END_OF_LINE (rest_of fs inode_num (pos + 1)))
          rw [hl, List.modifyHead_cons] at lines
          obtain ⟨rfl, rfl⟩ := List.cons.inj lines
          refine ⟨0, k', rfl, .inside hx hfile (by omega) hl, ?_, hout', hkeep⟩
          rw [List.head?_cons, Ne, Option.some.injEq]
          exact hx
      -- the end of the file, where the last line ends too
      · have hzero : min 1 ((fs.inode inode_num).length - pos) = 0 := by omega
        have hnone : rest_of fs inode_num pos = [] := by
          unfold rest_of
          have hleft : (fs.inode inode_num).length - pos = 0 := by omega
          rw [hleft]
          rfl
        rw [hnone, List.splitOn_nil] at lines
        obtain ⟨rfl, rfl⟩ := List.cons.inj lines
        rw [hzero]
        exact ⟨1, k', rfl, .file_end (Or.inl ⟨_, hfile⟩), nofun, hout', hkeep⟩

theorem visible_head (h : line.head? ≠ some END_OF_LINE) : visible line.head? ↔
    line.headD END_OF_LINE ≠ SPACE_ASCII ∧ line.headD END_OF_LINE ≠ END_OF_LINE := by
  unfold visible
  cases line with
  | nil => exact iff_of_false (fun hne => hne.1 rfl) fun hne => hne.2 rfl
  | cons x line =>
      rw [List.head?_cons] at h ⊢
      rw [List.headD_cons, Ne, Ne, Option.some.injEq]
      exact ⟨fun hne => ⟨hne.2, fun heq => h (congrArg some heq)⟩, fun hne => ⟨nofun, hne.1⟩⟩

/-- A frame at the end of a row. -/
theorem Reading.end_row (h : Reading fs fd inode_num k END_OF_LINE eof [] more) (hout : Stdout k sheet)
    (hfd : 2 ≤ fd) : ∃ c k', LinuxLikeOS.end_row fd eof k = some (c, k') ∧
      Reading fs fd inode_num k' c eof (more.headD []) more.tail ∧ (eof = 0 ↔ more ≠ []) ∧
      Stdout k' sheet ∧ OnlyFd fd.toNat k k' := by
  cases h with
  | inside hc file hpos lines => exact absurd rfl hc
  | line_end file hpos lines =>
      refine ⟨0x30, k, rfl, ?_, ?_, hout, .refl _ k⟩
      · obtain ⟨l, ls, hl⟩ := List.exists_cons_of_ne_nil
          (List.splitOn_ne_nil END_OF_LINE (rest_of fs inode_num _))
        rw [hl] at lines
        subst lines
        exact .inside (by decide) file hpos hl
      · rw [← lines]
        exact iff_of_true rfl (List.splitOn_ne_nil _ _)
  | file_end closable =>
      have hnot : ((1 : Int) = 0 ↔ ([] : List (List UInt8)) ≠ []) :=
        iff_of_false (by decide) fun hne => hne rfl
      rcases closable with ⟨pos, file⟩ | hclosed
      · obtain ⟨k', hclose, hclosed, hout', hkeep⟩ := file.close hout hfd
        refine ⟨END_OF_LINE, k', ?_, .file_end (Or.inr hclosed), hnot, hout', hkeep⟩
        unfold LinuxLikeOS.end_row
        rw [if_pos (by decide), hclose]
        rfl
      -- closed behind an earlier row, and the call is refused
      · have hclose : call_close fd k = some (-1, k) := by
          unfold call_close system_close
          exact if_neg fun hand => hclosed hand.2
        refine ⟨END_OF_LINE, k, ?_, .file_end (Or.inr hclosed), hnot, hout, .refl _ k⟩
        unfold LinuxLikeOS.end_row
        rw [if_pos (by decide), hclose]
        rfl

end

theorem headD_length_lt {rows : List (List UInt8)} {cols : ℕ} (hcols : 0 < cols)
    (h : ∀ line ∈ rows, line.length < cols) : (rows.headD []).length < cols := by
  cases rows with
  | nil => exact hcols
  | cons line rows => exact h line List.mem_cons_self

/-- Two frames that are open, and can be read to their ends. -/
structure TwoFrames (fs : file_sys) (fd0 fd1 : Int) (n0 n1 : ℕ) : Prop where
  ne : fd0.toNat ≠ fd1.toNat
  min0 : 2 ≤ fd0
  min1 : 2 ≤ fd1
  inode0 : n0 < fs.boot_block.inode_count
  inode1 : n1 < fs.boot_block.inode_count
  size0 : (fs.inode n0).length + 1 < 2147483648
  size1 : (fs.inode n1).length + 1 < 2147483648

section

variable {fs : file_sys} {fd0 fd1 : Int} {n0 n1 : ℕ} {k : Kernel} {c0 c1 : UInt8} {eof0 eof1 : Int}
  {line0 line1 : List UInt8} {more0 more1 : List (List UInt8)} {sheet : Sheet UInt8}
  {fuel : ℕ} (blink_struct : mp1_blink_struct)

/-- **A row of the frames**, by induction on its places. -/
theorem frame_row_spec (hframes : TwoFrames fs fd0 fd1 n0 n1) (c0_at c1_at row : ℕ)
    (h0 : Reading fs fd0 n0 k c0 eof0 line0 more0) (h1 : Reading fs fd1 n1 k c1 eof1 line1 more1)
    (hout : Stdout k sheet) (hfuel : max line0.length line1.length < fuel) (col : ℕ) (f : Blinkers) :
    ∃ eof0' eof1' k', frame_row fs fd0 fd1 c0_at c1_at blink_struct row fuel col ⟨c0, c1, eof0, eof1⟩ k f
        = some (⟨END_OF_LINE, END_OF_LINE, eof0', eof1'⟩, k',
          add_all (row_blinks blink_struct row col line0 line1) f) ∧
      Reading fs fd0 n0 k' END_OF_LINE eof0' [] more0 ∧
      Reading fs fd1 n1 k' END_OF_LINE eof1' [] more1 ∧ Stdout k' sheet := by
  induction fuel generalizing k c0 c1 eof0 eof1 line0 line1 col f with
  | zero => exact absurd hfuel (Nat.not_lt_zero _)
  | succ fuel ih =>
      obtain ⟨eof0', k₁, hread0, h0', hline0, hout₁, hkeep₁⟩ :=
        h0.read hout hframes.inode0 hframes.size0 c0_at
      obtain ⟨eof1', k₂, hread1, h1', hline1, hout₂, hkeep₂⟩ :=
        (h1.same (hkeep₁.named_fd hframes.ne.symm)).read hout₁ hframes.inode1 hframes.size1 c1_at
      have h0'' := h0'.same (hkeep₂.named_fd hframes.ne)
      unfold frame_row
      dsimp only
      rw [hread0, Option.bind_some]
      dsimp only
      rw [hread1, Option.bind_some]
      dsimp only
      by_cases hnil : line0 = [] ∧ line1 = []
      · obtain ⟨rfl, rfl⟩ := hnil
        rw [if_pos ⟨rfl, rfl⟩]
        exact ⟨eof0', eof1', k₂, rfl, h0'', h1', hout₂⟩
      · have hsome : line0 ≠ [] ∨ line1 ≠ [] := by
          rwa [← not_and_or]
        have hmore : ¬ (line0.headD END_OF_LINE = END_OF_LINE ∧ line1.headD END_OF_LINE = END_OF_LINE) := by
          rintro ⟨heq0, heq1⟩
          cases line0 with
          | cons x line0 => exact hline0 (congrArg some heq0)
          | nil =>
              cases line1 with
              | cons x line1 => exact hline1 (congrArg some heq1)
              | nil => exact hnil ⟨rfl, rfl⟩
        -- the record that the code adds is that of the place
        have hplace : (if (line0.headD END_OF_LINE ≠ SPACE_ASCII ∧ line0.headD END_OF_LINE ≠ END_OF_LINE) ∨
              (line1.headD END_OF_LINE ≠ SPACE_ASCII ∧ line1.headD END_OF_LINE ≠ END_OF_LINE) then
            (mp1_ioctl_add (frame_blink blink_struct (line0.headD END_OF_LINE)
              (line1.headD END_OF_LINE) row col) f).2 else f)
            = add_all (place_blink blink_struct line0.head? line1.head? row col).toList f := by
          simp only [← visible_head hline0, ← visible_head hline1]
          unfold place_blink
          rw [List.headD_eq_head?_getD, List.headD_eq_head?_getD]
          split
          · rfl
          · rfl
        have hlen : max line0.tail.length line1.tail.length < fuel := by
          rw [← List.length_pos_iff, ← List.length_pos_iff] at hsome
          rw [List.length_tail, List.length_tail]
          omega
        rw [if_neg hmore, hplace, row_blinks_next hsome, add_all_append]
        exact ih h0'' h1' hout₂ hlen (col + 1) _

/-- **All rows**, by induction on those that are left. -/
theorem frame_rows_spec (hframes : TwoFrames fs fd0 fd1 n0 n1) (c0_at c1_at : ℕ) {cols : ℕ}
    {rows0 rows1 : List (List UInt8)}
    (h0 : Reading fs fd0 n0 k c0 eof0 (rows0.headD []) rows0.tail) (hend0 : eof0 = 0 ↔ rows0 ≠ [])
    (h1 : Reading fs fd1 n1 k c1 eof1 (rows1.headD []) rows1.tail) (hend1 : eof1 = 0 ↔ rows1 ≠ [])
    (hcols0 : ∀ line ∈ rows0, line.length < cols) (hcols1 : ∀ line ∈ rows1, line.length < cols)
    (hcols : 0 < cols) (hfuel : max rows0.length rows1.length < fuel) (hout : Stdout k sheet)
    (row : ℕ) (f : Blinkers) :
    ∃ k', frame_rows fs fd0 fd1 c0_at c1_at blink_struct cols fuel row ⟨c0, c1, eof0, eof1⟩ k f
        = some (k', add_all (frames_blinks blink_struct row rows0 rows1) f) ∧ Stdout k' sheet := by
  induction fuel generalizing k c0 c1 eof0 eof1 rows0 rows1 row f with
  | zero => exact absurd hfuel (Nat.not_lt_zero _)
  | succ fuel ih =>
      unfold frame_rows
      dsimp only
      by_cases hmore : rows0 ≠ [] ∨ rows1 ≠ []
      · have hgo : eof0 = 0 ∨ eof1 = 0 := by rwa [hend0, hend1]
        have hline : max (rows0.headD []).length (rows1.headD []).length < cols :=
          max_lt (headD_length_lt hcols hcols0) (headD_length_lt hcols hcols1)
        obtain ⟨eof0', eof1', k₁, hrow, h0₁, h1₁, hout₁⟩ :=
          frame_row_spec blink_struct hframes c0_at c1_at row h0 h1 hout hline 0 f
        obtain ⟨c0', k₂, hclose0, h0₂, hend0', hout₂, hkeep₂⟩ := h0₁.end_row hout₁ hframes.min0
        obtain ⟨c1', k₃, hclose1, h1₃, hend1', hout₃, hkeep₃⟩ :=
          (h1₁.same (hkeep₂.named_fd hframes.ne.symm)).end_row hout₂ hframes.min1
        -- the second file is closed behind the first, which is still read as it was
        have hlen : max rows0.tail.length rows1.tail.length < fuel := by
          rw [← List.length_pos_iff, ← List.length_pos_iff] at hmore
          rw [List.length_tail, List.length_tail]
          omega
        rw [if_pos hgo, hrow, Option.bind_some]
        dsimp only
        rw [hclose0, Option.bind_some]
        dsimp only
        rw [hclose1, Option.bind_some, frames_blinks_next hmore, add_all_append]
        exact ih (h0₂.same (hkeep₃.named_fd hframes.ne)) hend0' h1₃ hend1'
          (fun line hline => hcols0 line (List.mem_of_mem_tail hline))
          (fun line hline => hcols1 line (List.mem_of_mem_tail hline)) hlen hout₃ (row + 1) _
      · have hstop : ¬ (eof0 = 0 ∨ eof1 = 0) := by rwa [hend0, hend1]
        rw [not_or, not_not, not_not] at hmore
        obtain ⟨rfl, rfl⟩ := hmore
        rw [if_neg hstop]
        exact ⟨k, rfl, hout⟩

end

/-- The lines of a frame. -/
def frame_lines (fs : file_sys) (d : dentry_t) : List (List UInt8) :=
  (file_text fs d).splitOn END_OF_LINE

/-- A text that the program finds and can read, with no more columns than the screen has; with more
rows the locations would not fit their words. -/
structure FrameFile (fs : file_sys) (buf : ℕ → UInt8) (name : List UInt8) (d : dentry_t) : Prop where
  buffer : TextAt buf name
  found : read_dentry_by_name fs (c_str name) = some d
  regular : d.filetype = 2
  inode : d.inode_num < fs.boot_block.inode_count
  inode_count : fs.boot_block.inode_count < 4294967296
  length_lt : (fs.inode d.inode_num).length + 1 < 2147483648
  framed : Framed (frame_lines fs d)

section

variable {fs : file_sys} {f0 f1 buf : ℕ → UInt8} {name name0 name1 : List UInt8} {d d0 d1 : dentry_t}
  {k k' : Kernel} {sheet : Sheet UInt8} {fuel : ℕ} {fd : Int}

/-- A frame that has just been opened. -/
theorem reading_opened (hfile : FileAt fd d.inode_num 0 k) :
    Reading fs fd d.inode_num k 0x30 0 ((frame_lines fs d).headD []) (frame_lines fs d).tail ∧
      ((0 : Int) = 0 ↔ frame_lines fs d ≠ []) := by
  have hne : frame_lines fs d ≠ [] := List.splitOn_ne_nil _ _
  obtain ⟨line, more, hlines⟩ := List.exists_cons_of_ne_nil hne
  refine ⟨?_, iff_of_true rfl hne⟩
  rw [hlines]
  exact .inside (by decide) hfile (Nat.zero_le _) hlines

/-- **`add_frames` adds the records of the two texts**, and leaves the screen of the kernel alone. -/
theorem add_frames_spec (h0 : FrameFile fs f0 name0 d0) (h1 : FrameFile fs f1 name1 d1)
    (c0_at c1_at : ℕ) (blink_struct : mp1_blink_struct) (hfuel : 818 < fuel) {i : ℕ} (hmin : 2 ≤ i)
    (hmax : i + 1 < FILE_DESCRIPTOR_MAX) (hfree : FreeFrom i k)
    (hbelow : ∀ j, 2 ≤ j → j < i → (table k k.curr_pid j).in_use) (hout : Stdout k sheet)
    (f : Blinkers) :
    ∃ k', add_frames fs f0 f1 c0_at c1_at blink_struct fuel k f = some (.ok (k',
        add_all (frames_blinks blink_struct 0 (frame_lines fs d0) (frame_lines fs d1)) f)) ∧
      Stdout k' sheet := by
  have hinode0 := h0.inode
  have hinode1 := h1.inode
  have hcount := h0.inode_count
  have hslot0 := hfree.free_fd hmin (by omega) hbelow
  obtain ⟨k₁, hopen0, hfile0, hout₁, hkeep₁⟩ :=
    hout.open_file h0.buffer h0.found h0.regular (by omega) hslot0
  -- the second file gets the next descriptor
  have hfree₁ : FreeFrom (i + 1) k₁ := by
    intro j hj hj'
    rw [hkeep₁.curr_pid, hkeep₁.fds j (by omega)]
    exact hfree j (by omega) hj'
  have hbelow₁ : ∀ j, 2 ≤ j → j < i + 1 → (table k₁ k₁.curr_pid j).in_use := by
    intro j hj hj'
    by_cases hji : j = i
    · rw [hji]
      exact hfile0.readable.2
    · rw [hkeep₁.curr_pid, hkeep₁.fds j hji]
      exact hbelow j hj (by omega)
  have hslot1 := hfree₁.free_fd (by omega) hmax hbelow₁
  obtain ⟨k₂, hopen1, hfile1, hout₂, hkeep₂⟩ :=
    hout₁.open_file h1.buffer h1.found h1.regular (by omega) hslot1
  have hframes : TwoFrames fs (i : ℕ) (i + 1 : ℕ) d0.inode_num d1.inode_num :=
    ⟨by omega, by omega, by omega, hinode0, hinode1, h0.length_lt, h1.length_lt⟩
  obtain ⟨hread0, hend0⟩ := reading_opened (hfile0.same (hkeep₂.named_fd (by omega)))
  obtain ⟨hread1, hend1⟩ := reading_opened hfile1
  have hrows : max (frame_lines fs d0).length (frame_lines fs d1).length < fuel :=
    max_lt (Nat.lt_of_le_of_lt h0.framed.rows hfuel) (Nat.lt_of_le_of_lt h1.framed.rows hfuel)
  have hcols0 : ∀ line ∈ frame_lines fs d0, line.length < fuel :=
    fun line hline => Nat.lt_of_le_of_lt (h0.framed.cols line hline) (by omega)
  have hcols1 : ∀ line ∈ frame_lines fs d1, line.length < fuel :=
    fun line hline => Nat.lt_of_le_of_lt (h1.framed.cols line hline) (by omega)
  obtain ⟨k', hadded, hout'⟩ := frame_rows_spec blink_struct hframes c0_at c1_at hread0 hend0 hread1
    hend1 hcols0 hcols1 (by omega) hrows hout₂ 0 f
  refine ⟨k', ?_, hout'⟩
  unfold add_frames
  rw [hopen0, Option.bind_some]
  dsimp only
  rw [if_neg (by omega), hopen1, Option.bind_some]
  dsimp only
  rw [if_neg (by omega), hadded]
  rfl

end

/-! ## What the list has then -/

/-- The call that adds a record. -/
def add_op (b : mp1_blink_struct) : BlinkOp := .ioctl (.RTC_ADD b)

theorem blink_run_adds (fuel : ℕ) (bs : List mp1_blink_struct) (f : Blinkers) :
    ∃ answers, blink_run fuel f (bs.map add_op) = some (answers, add_all bs f) := by
  induction bs generalizing f with
  | nil => exact ⟨[], rfl⟩
  | cons b bs ih =>
      obtain ⟨answers, hrun⟩ := ih (mp1_ioctl_add b f).2
      have hcall : blink_perform fuel f (add_op b)
          = some (⟨some (mp1_ioctl_add b f).1, none⟩, (mp1_ioctl_add b f).2) := rfl
      refine ⟨⟨some (mp1_ioctl_add b f).1, none⟩ :: answers, ?_⟩
      rw [List.map_cons]
      unfold blink_run
      rw [hcall, Option.bind_some]
      dsimp only
      rw [hrun]
      rfl

theorem blink_ticks_adds (bs : List mp1_blink_struct) : blink_ticks (bs.map add_op) = 0 := by
  induction bs with
  | nil => rfl
  | cons b bs ih => exact ih

/-- Records at different cells of the screen. -/
structure Listing.Apart (w : Listing) : Prop where
  nodup : (w.blinks.map fun b => b.location.toNat).Nodup
  bounded : ∀ b ∈ w.blinks, b.location.toNat < BLINKS

section

variable {w : Listing} {location : BitVec 16} {user : Blink} {b : mp1_blink_struct}
  {bs : List mp1_blink_struct}

/-- There is room for a record at one more cell. -/
theorem Listing.Apart.room (h : w.Apart) (hcell : location.toNat < BLINKS)
    (hnew : ∀ b ∈ w.blinks, b.location ≠ location) : w.blinks.length < BLINKS := by
  have hnodup : (location.toNat :: w.blinks.map fun b => b.location.toNat).Nodup := by
    rw [List.nodup_cons]
    refine ⟨fun hmem => ?_, h.nodup⟩
    obtain ⟨b, hb, heq⟩ := List.mem_map.mp hmem
    exact hnew b hb (BitVec.eq_of_toNat_eq heq)
  have hsub : (location.toNat :: w.blinks.map fun b => b.location.toNat).toFinset
      ⊆ Finset.range BLINKS := by
    intro i hi
    rw [List.mem_toFinset, List.mem_cons] at hi
    rw [Finset.mem_range]
    rcases hi with rfl | hi
    · exact hcell
    · obtain ⟨b, hb, rfl⟩ := List.mem_map.mp hi
      exact h.bounded b hb
  have hcard := Finset.card_le_card hsub
  rwa [List.toFinset_card_of_nodup hnodup, Finset.card_range, List.length_cons, List.length_map] at hcard

theorem Listing.mem_add {x : Blink} (h : x ∈ (w.add user).2.blinks) : x = user.begin ∨ x ∈ w.blinks := by
  unfold Listing.add at h
  split at h
  · exact Or.inr h
  · exact List.mem_cons.mp h

theorem Listing.Apart.add (h : w.Apart) (hnew : ∀ x ∈ w.blinks, x.location ≠ user.location) :
    (w.add user).2.Apart := by
  unfold Listing.add
  split
  · exact h
  next hroom =>
    rw [not_or, Nat.not_le] at hroom
    constructor
    · dsimp only
      rw [List.map_cons, List.nodup_cons]
      refine ⟨fun hmem => ?_, h.nodup⟩
      obtain ⟨x, hx, heq⟩ := List.mem_map.mp hmem
      exact hnew x hx (BitVec.eq_of_toNat_eq heq)
    · intro x hx
      rcases List.mem_cons.mp hx with rfl | hx
      · exact hroom.1
      · exact h.bounded x hx

/-- **Records for different cells are all added.** -/
theorem Listing.Apart.alone (h : w.Apart) (hapart : bs.Pairwise fun b b' => b.location ≠ b'.location)
    (hnew : ∀ b ∈ bs, ∀ x ∈ w.blinks, x.location ≠ b.location) (hb : b ∈ bs)
    (hcell : b.location.toNat < BLINKS) :
    ∃ x, (w.run (bs.map add_op)).2.Alone b.location x ∧ OnSchedule b.toBlink 0 x := by
  induction bs generalizing w with
  | nil => cases hb
  | cons b₀ bs ih =>
      obtain ⟨hapart₀, hapart⟩ := List.pairwise_cons.mp hapart
      have hnew₀ := hnew b₀ List.mem_cons_self
      rcases List.mem_cons.mp hb with rfl | hb
      · have hroom := h.room hcell hnew₀
        have hnone : w.blinks.find? (Blink.at b.location) = none :=
          List.find?_eq_none.mpr fun x hx hat => hnew₀ x hx (at_iff.mp hat)
        have hadd : (w.add b.toBlink).1 = 0 := by
          unfold Listing.add
          rw [if_neg (by rw [not_or, Nat.not_le, Nat.not_le]; exact ⟨hcell, hroom⟩)]
        -- the records behind it are for other cells
        have hothers : ∀ op ∈ bs.map add_op, ¬ op.Names b.location := by
          intro op hop
          obtain ⟨b', hb', rfl⟩ := List.mem_map.mp hop
          exact fun heq => hapart₀ b' hb' heq.symm
        have hrun := (Listing.alone_added hnone hadd).run
          (⟨rfl, rfl, rfl, rfl, b.toBlink.begin_phase⟩ : OnSchedule b.toBlink 0 b.toBlink.begin) hothers
        rwa [blink_ticks_adds] at hrun
      · refine ih (h.add hnew₀) hapart (fun b' hb' x hx => ?_) hb
        rcases Listing.mem_add hx with rfl | hx
        · exact hapart₀ b' hb'
        · exact hnew b' (List.mem_cons_of_mem b₀ hb') x hx

end

/-! ## What is shown -/

/-- What is shown at a place of two texts, `n` ticks after they have been added. -/
def frame_shown (c0 c1 : Option UInt8) (n : ℕ) (below : UInt8) : UInt8 :=
  if visible c0 ∨ visible c1 then
    if n % 30 < 15 then c0.getD SPACE_ASCII else c1.getD SPACE_ASCII
  else below

section

variable {blink_struct b : mp1_blink_struct} {c c0 c1 : Option UInt8} {row col n : ℕ}
  {rows rows0 rows1 : List (List UInt8)} {ops : List BlinkOp}

/-- The end of a line is shown as a blank. -/
theorem shown_char (h : c ≠ some END_OF_LINE) :
    (if c.getD END_OF_LINE = END_OF_LINE then SPACE_ASCII else c.getD END_OF_LINE)
      = c.getD SPACE_ASCII := by
  cases c with
  | none => exact if_pos rfl
  | some x => exact if_neg fun heq => h (congrArg some heq)

theorem scheduled_frame_blink (h0 : c0 ≠ some END_OF_LINE) (h1 : c1 ≠ some END_OF_LINE) :
    scheduled (frame_blink blink_struct (c0.getD END_OF_LINE) (c1.getD END_OF_LINE) row col).toBlink n
      = if n % 30 < 15 then c0.getD SPACE_ASCII else c1.getD SPACE_ASCII := by
  have hlength : duration 15 = 15 := by decide
  unfold scheduled frame_blink
  dsimp only
  rw [hlength, shown_char h0, shown_char h1]

theorem char_at_ne (h : ∀ line ∈ rows, END_OF_LINE ∉ line) :
    char_at rows row col ≠ some END_OF_LINE := by
  intro heq
  have hmem : END_OF_LINE ∈ rows.getD row [] := List.mem_of_getElem? heq
  by_cases hrow : row < rows.length
  · rw [List.getD_eq_getElem _ _ hrow] at hmem
    exact h _ (List.getElem_mem hrow) hmem
  · rw [List.getD_eq_default _ _ (Nat.not_lt.mp hrow)] at hmem
    cases hmem

/-- A record that the frames add is for a place where something is. -/
theorem frames_blinks_place (h0 : Framed rows0) (h1 : Framed rows1)
    (hb : b ∈ frames_blinks blink_struct 0 rows0 rows1) :
    ∃ row col, row < 818 ∧ col < 80 ∧ b.location = frame_location row col ∧
      (visible (char_at rows0 row col) ∨ visible (char_at rows1 row col)) := by
  obtain ⟨row, col, hplace⟩ := mem_frames_blinks.mp hb
  have hvisible := (place_blink_eq_some.mp hplace).1
  have hin : row < 818 ∧ col < 80 := by
    rcases hvisible with hv | hv
    · exact ⟨Nat.lt_of_lt_of_le hv.lt.1 h0.rows, Nat.lt_of_lt_of_le hv.lt.2 (h0.length_getD row)⟩
    · exact ⟨Nat.lt_of_lt_of_le hv.lt.1 h1.rows, Nat.lt_of_lt_of_le hv.lt.2 (h1.length_getD row)⟩
  exact ⟨row, col, hin.1, hin.2, place_blink_location hplace, hvisible⟩

theorem adds_placed (h0 : Framed rows0) (h1 : Framed rows1) :
    ∀ op ∈ (frames_blinks blink_struct 0 rows0 rows1).map add_op, op.Placed := by
  intro op hop
  obtain ⟨b, hb, rfl⟩ := List.mem_map.mp hop
  obtain ⟨row, col, hrow, hcol, hloc, -⟩ := frames_blinks_place h0 h1 hb
  intro hzero
  have hnat := frame_location_toNat hrow hcol
  rw [← hloc, hzero] at hnat
  have hnone : (0 : BitVec 16).toNat = 0 := rfl
  omega

/-- The cell of a place, when the records have been added and calls that do not name it are made. -/
theorem cell_shown (h0 : Framed rows0) (h1 : Framed rows1)
    (hbreak0 : ∀ line ∈ rows0, END_OF_LINE ∉ line) (hbreak1 : ∀ line ∈ rows1, END_OF_LINE ∉ line)
    (screen : ℕ → UInt8) (hcol : col < 80) (hcell : row * 80 + col + 40 < BLINKS)
    (hops : ∀ op ∈ ops, ¬ op.Names (frame_location row col)) :
    (((Listing.mk [] screen).run ((frames_blinks blink_struct 0 rows0 rows1).map add_op)).2.run
        ops).2.screen (2 * (row * 80 + col + 40))
      = frame_shown (char_at rows0 row col) (char_at rows1 row col) (blink_ticks ops)
          (screen (2 * (row * 80 + col + 40))) := by
  have hcells : BLINKS = 2000 := rfl
  have hrow : row < 818 := by omega
  rw [← frame_location_toNat hrow hcol] at hcell ⊢
  unfold frame_shown
  split
  next hvisible =>
    -- the record of the place is the only one there
    have hplace : place_blink blink_struct (char_at rows0 row col) (char_at rows1 row col) row col
        = some (frame_blink blink_struct ((char_at rows0 row col).getD END_OF_LINE)
          ((char_at rows1 row col).getD END_OF_LINE) row col) :=
      place_blink_eq_some.mpr ⟨hvisible, rfl⟩
    have hb := mem_frames_blinks.mpr ⟨row, col, hplace⟩
    have hempty : (Listing.mk [] screen).Apart := ⟨List.nodup_nil, List.forall_mem_nil _⟩
    obtain ⟨x, halone, hx⟩ := hempty.alone (frames_blinks_apart h0 h1)
      (fun _ _ => List.forall_mem_nil _) hb hcell
    obtain ⟨y, halone', hy⟩ := halone.run hx hops
    rw [Nat.zero_add] at hy
    exact halone'.shown.trans (hy.face.trans
      (scheduled_frame_blink (char_at_ne hbreak0) (char_at_ne hbreak1)))
  next hblank =>
    -- a record at this location would be for this place
    have hvacant : (Listing.mk [] screen).Vacant (frame_location row col)
        (screen (2 * (frame_location row col).toNat)) := ⟨rfl, rfl⟩
    refine ((hvacant.run fun op hop => ?_).run hops).shown
    obtain ⟨b, hb, rfl⟩ := List.mem_map.mp hop
    obtain ⟨row', col', hrow', hcol', hloc, hvisible⟩ := frames_blinks_place h0 h1 hb
    intro hnames
    obtain ⟨rfl, rfl⟩ := frame_location_inj hrow' hcol' hrow hcol (hloc.symm.trans hnames)
    exact hblank hvisible

end

/-- **Two texts that alternate.** A process that has two descriptors left adds two texts of at most 80
columns. Whatever it adds, removes and synchronizes at other locations later, a place of the screen
shows the character of the first text for 15 ticks, that of the second for 15 ticks, and so on, with
blanks for what a text does not have; where both are blank, nothing is drawn. -/
theorem frames_alternate {fs : file_sys} {f0 f1 : ℕ → UInt8} {name0 name1 : List UInt8}
    {d0 d1 : dentry_t} (h0 : FrameFile fs f0 name0 d0) (h1 : FrameFile fs f1 name1 d1)
    (c0_at c1_at : ℕ) (blink_struct : mp1_blink_struct) {fuel : ℕ} (hfuel : BLINKS < fuel)
    {k : Kernel} {i : ℕ} (hmin : 2 ≤ i) (hmax : i + 1 < FILE_DESCRIPTOR_MAX) (hfree : FreeFrom i k)
    (hbelow : ∀ j, 2 ≤ j → j < i → (table k k.curr_pid j).in_use) {sheet : Sheet UInt8}
    (hout : Stdout k sheet) (vmem : ℕ → UInt8) :
    ∃ k' f, add_frames fs f0 f1 c0_at c1_at blink_struct fuel k (no_blinks vmem)
        = some (.ok (k', f)) ∧ Stdout k' sheet ∧
      ∀ ops : List BlinkOp, (∀ op ∈ ops, op.Placed) →
        ∃ answers f', blink_run fuel f ops = some (answers, f') ∧
          ∀ row col, col < 80 → row * 80 + col + 40 < BLINKS →
            (∀ op ∈ ops, ¬ op.Names (frame_location row col)) →
              f'.vmem (2 * (row * 80 + col + 40))
                = frame_shown (char_at (frame_lines fs d0) row col) (char_at (frame_lines fs d1) row col)
                    (blink_ticks ops) (vmem (2 * (row * 80 + col + 40))) := by
  have hrows : 818 < fuel := Nat.lt_trans (by decide) hfuel
  obtain ⟨k', hadded, hout'⟩ :=
    add_frames_spec h0 h1 c0_at c1_at blink_struct hrows hmin hmax hfree hbelow hout (no_blinks vmem)
  obtain ⟨answers, hadds⟩ := blink_run_adds fuel
    (frames_blinks blink_struct 0 (frame_lines fs d0) (frame_lines fs d1)) (no_blinks vmem)
  obtain ⟨f, slots, hrun, hlisted⟩ :=
    (listed_no_blinks vmem).run hfuel (adds_placed h0.framed h1.framed)
  rw [hadds, Option.some.injEq, Prod.mk.injEq] at hrun
  obtain ⟨-, rfl⟩ := hrun
  refine ⟨k', _, hadded, hout', fun ops hops => ?_⟩
  obtain ⟨f', slots', hrun', hlisted'⟩ := hlisted.run hfuel hops
  refine ⟨_, f', hrun', fun row col hcol hcell hnames => ?_⟩
  rw [← hlisted'.screen]
  exact cell_shown h0.framed h1.framed (fun _ => not_mem_line)
    (fun _ => not_mem_line) vmem hcol hcell hnames

/-! ## The program -/

/-- How many times `main` waits for the clock. -/
def WAIT : ℕ := 100

/-- The calls that `main` makes when it has added the frames. -/
def main_ops : List BlinkOp :=
  List.replicate WAIT .tasklet ++ .ioctl (.RTC_ADD main_blink) ::
    (List.replicate WAIT .tasklet ++ .ioctl (.RTC_SYNC (40 <<< 16 ||| (6 * 80 + 60))) ::
      (List.replicate WAIT .tasklet ++ .ioctl (.RTC_REMOVE (6 * 80 + 60)) ::
        List.replicate WAIT .tasklet))

/-- A directory with two frames. -/
def frames_fs : file_sys where
  boot_block :=
    { dir_count := 2
      inode_count := 2
      direntries := fun i =>
        if i = 0 then ⟨c_str (ascii "frame0.txt"), 2, 0⟩
        else if i = 1 then ⟨c_str (ascii "frame1.txt"), 2, 1⟩
        else ⟨fun _ => 0, 0, 0⟩ }
  inode := fun i => ⟨3, fun _ => i⟩
  data_block := fun i => if i = 0 then c_str (ascii "o\n-") else c_str (ascii "-\no")

/-- The program has run with the two frames. -/
theorem frames_alternate_demo : ∃ k k' f answers f',
    new_process (system_execute demo_env (some (ascii "shell b")) (demo_frame 4 4) demo_front) = some k ∧
      add_frames frames_fs (c_str (ascii "frame0.txt")) (c_str (ascii "frame1.txt")) demo_buf
        demo_buf blank_blink
        2001 k (no_blinks fun _ => 0) = some (.ok (k', f)) ∧
      blink_run 2001 f main_ops = some (answers, f') ∧ f'.vmem 80 = 0x6F ∧ f'.vmem 240 = 0x2D := by
  obtain ⟨k, hk, -, hfree, -, hout⟩ := demo_process
  have h0 : FrameFile frames_fs (c_str (ascii "frame0.txt")) (ascii "frame0.txt")
      ⟨c_str (ascii "frame0.txt"), 2, 0⟩ :=
    ⟨.c_str (by decide) (by decide), rfl, rfl, by decide, by decide, by decide, by decide, by decide⟩
  have h1 : FrameFile frames_fs (c_str (ascii "frame1.txt")) (ascii "frame1.txt")
      ⟨c_str (ascii "frame1.txt"), 2, 1⟩ :=
    ⟨.c_str (by decide) (by decide), rfl, rfl, by decide, by decide, by decide, by decide, by decide⟩
  obtain ⟨k', f, hadded, -, hlater⟩ := frames_alternate h0 h1 demo_buf demo_buf blank_blink
    (by decide : BLINKS < 2001) (Nat.le_refl 2) (by decide) hfree
    (fun j hj hj' => absurd hj' (Nat.not_lt.mpr hj)) hout fun _ => 0
  obtain ⟨answers, f', hrun, hshown⟩ := hlater main_ops (by decide +kernel)
  have hfirst := hshown 0 0 (by decide) (by decide) (by decide +kernel)
  have hsecond := hshown 1 0 (by decide) (by decide) (by decide +kernel)
  exact ⟨k, k', f, answers, f', hk, hadded, hrun, hfirst.trans (by decide +kernel),
    hsecond.trans (by decide +kernel)⟩

end LinuxLikeOS
