/-
`ece391grep.c`: the search for a pattern in the lines of a file.

The file is read into one array of 1024 bytes, in which a line that has been begun is moved down
before the next part is read behind it. A line that fills the array is taken to be complete. The
byte behind the array's last one is looked at before anything has been stored there: if the stack
happens to hold a line break at it, the line at the end of the first block is cut in two. Apart from
that, and as long as no line is longer than the array, the program prints exactly the lines that
contain the pattern.
-/
import LinuxLikeOS.GetArgs
import LinuxLikeOS.Lookup
import LinuxLikeOS.Records
import LinuxLikeOS.Support
import LinuxLikeOS.TextLines

set_option autoImplicit false

namespace LinuxLikeOS

open Kernel TextLayout TextLines Records

def BUFSIZE : ℕ := 1024

/-! ## The program -/

/-- `while (line_end < last && '\n' != data[line_end]) line_end++;` -/
def find_line_end (data : ℕ → UInt8) (last : ℕ) : ℕ → ℕ → ℕ
  | 0, line_end => line_end
  | fuel + 1, line_end =>
      if line_end < last ∧ data line_end ≠ END_OF_LINE then find_line_end data last fuel (line_end + 1)
      else line_end

/-- The loop over `check`, up to the first place where the pattern stands. -/
def search_line (s data : ℕ → UInt8) (s_len line_end : ℕ) : ℕ → ℕ → Bool
  | 0, _ => false
  | fuel + 1, check =>
      if check < line_end then
        if s 0 = data check ∧ ece391_strncmp (fun i => data (check + i)) s s_len = 0 then true
        else search_line s data s_len line_end fuel (check + 1)
      else false

/-- The name of the file and the line. -/
def put_line (fname line : ℕ → UInt8) (k : Kernel) : Option Kernel :=
  (ece391_fdputs 1 fname k).bind fun k =>
  (ece391_fdputs 1 (c_str (ascii ":")) k).bind fun k =>
  (ece391_fdputs 1 line k).bind fun k =>
  ece391_fdputs 1 (c_str (ascii "\n")) k

structure grep_block where
  data : ℕ → UInt8
  last : ℕ
  k : Kernel

/-- The inner loop of `do_one_file`, with `line_start`. -/
def grep_lines (s fname : ℕ → UInt8) (s_len : ℕ) (cnt : Int) : ℕ → ℕ → grep_block → Option grep_block
  | 0, _, _ => none
  | fuel + 1, line_start, ⟨data, last, k⟩ =>
      let line_end := find_line_end data last (last - line_start) line_start
      if data line_end ≠ END_OF_LINE ∧ cnt ≠ 0 ∧ line_start ≠ 0 then
        -- the line goes on in the next block
        let data := Function.update data line_end 0
        some ⟨ece391_strcpy 0 line_start data, last - line_start, k⟩
      else
        let data := Function.update data line_end 0
        (if search_line s data s_len line_end (line_end - line_start) line_start then
          put_line fname (fun i => data (line_start + i)) k else some k).bind fun k =>
        let line_start := line_end + 1
        if line_start ≥ last then some ⟨data, 0, k⟩
        else grep_lines s fname s_len cnt fuel line_start ⟨data, last, k⟩

/-- The outer loop, and what follows it. -/
def grep_blocks (fs : file_sys) (s fname : ℕ → UInt8) (s_len : ℕ) (fd : Int) (data_at : ℕ) :
    ℕ → grep_block → Option (Int × Kernel)
  | 0, _ => none
  | fuel + 1, ⟨data, last, k⟩ =>
      (call_read fs fd (data_at + last) (BUFSIZE - last : ℕ) k).bind fun (cnt, bytes, k) =>
      if cnt = -1 then
        (ece391_fdputs 1 (c_str (ascii "file read failed\n")) k).map fun k => (-1, k)
      else
        (grep_lines s fname s_len cnt (BUFSIZE + 2) 0
          ⟨store_at last bytes data, last + cnt.toNat, k⟩).bind fun block =>
        if cnt = 0 then
          (call_close fd block.k).bind fun (r, k) =>
          if r = -1 then
            (ece391_fdputs 1 (c_str (ascii "file close failed\n")) k).map fun k => (-1, k)
          else some (0, k)
        else grep_blocks fs s fname s_len fd data_at fuel block

/-- `data` is what the stack holds at `data_at`. -/
def do_one_file (fs : file_sys) (s fname : ℕ → UInt8) (data_at : ℕ) (data : ℕ → UInt8) (fuel : ℕ)
    (k : Kernel) : Option (Int × Kernel) :=
  let s_len := ece391_strlen s
  (call_open fs fname k).bind fun (fd, k) =>
  if fd = -1 then (ece391_fdputs 1 (c_str (ascii "file open failed\n")) k).map fun k => (-1, k)
  else grep_blocks fs s fname s_len fd data_at fuel ⟨data, 0, k⟩

def SBUFSIZE : ℕ := 33

/-- The loop of `main` over the directory; `stack i` is what the stack holds at `data_at` when `i`
rounds are left. -/
def grep_entries (fs : file_sys) (s : ℕ → UInt8) (fd : Int) (buf_at data_at : ℕ) (stack : ℕ → ℕ → UInt8)
    (fuel : ℕ) : ℕ → (ℕ → UInt8) → Kernel → Option (Int × Kernel)
  | 0, _, _ => none
  | rounds + 1, buf, k =>
      (call_read fs fd buf_at (SBUFSIZE - 1 : ℕ) k).bind fun (cnt, bytes, k) =>
      let buf := store_bytes bytes buf
      if cnt = 0 then some (0, k)
      else if cnt = -1 then
        (ece391_fdputs 1 (c_str (ascii "directory entry read failed\n")) k).map fun k => (3, k)
      else if buf 0 = 0x2E then grep_entries fs s fd buf_at data_at stack fuel rounds buf k
      else
        let buf := Function.update buf cnt.toNat 0
        (do_one_file fs s buf data_at (stack rounds) fuel k).bind fun (r, k) =>
        if r ≠ 0 then some (3, k) else grep_entries fs s fd buf_at data_at stack fuel rounds buf k

def grep_main (fs : file_sys) (search buf : ℕ → UInt8) (buf_at data_at : ℕ) (stack : ℕ → ℕ → UInt8)
    (fuel rounds : ℕ) (k : Kernel) : Option (Int × Kernel) :=
  let search := getargs_buffer BUFSIZE k search
  if (system_getargs BUFSIZE k).1 ≠ 0 then
    (ece391_fdputs 1 (c_str (ascii "could not read argument\n")) k).map fun k => (3, k)
  else
    (call_open fs (c_str (ascii ".")) k).bind fun (fd, k) =>
    if fd = -1 then
      (ece391_fdputs 1 (c_str (ascii "directory open failed\n")) k).map fun k => (2, k)
    else grep_entries fs search fd buf_at data_at stack fuel rounds buf k

/-! ## What it is for -/

/-- What is printed for a line of the file `name`. -/
def matching_line (pattern name line : List UInt8) : List UInt8 :=
  if pattern ≠ [] ∧ pattern <:+: line then name ++ ascii ":" ++ line ++ ascii "\n" else []

/-- What is printed for a file. -/
def matching_lines (pattern name text : List UInt8) : List UInt8 :=
  by_lines END_OF_LINE (matching_line pattern name) text

theorem matching_line_nil (pattern name : List UInt8) : matching_line pattern name [] = [] := by
  unfold matching_line
  rw [if_neg]
  rintro ⟨hne, hinfix⟩
  exact hne (List.infix_nil.mp hinfix)

/-! ## One line -/

section

variable {s fname data : ℕ → UInt8} {pattern name line : List UInt8} {k : Kernel} {sheet : Sheet UInt8}

theorem find_line_end_eq {last fuel start stop : ℕ} (hle : start ≤ stop) (hlast : stop ≤ last)
    (hfuel : stop - start ≤ fuel) (hbody : ∀ j, start ≤ j → j < stop → data j ≠ END_OF_LINE)
    (hstop : stop = last ∨ data stop = END_OF_LINE) : find_line_end data last fuel start = stop := by
  induction fuel generalizing start with
  | zero =>
      unfold find_line_end
      omega
  | succ fuel ih =>
      unfold find_line_end
      by_cases hend : start = stop
      · subst hend
        rw [if_neg]
        rintro ⟨hlt, hne⟩
        exact hstop.elim (fun heq => by omega) hne
      · rw [if_pos ⟨by omega, hbody start (Nat.le_refl _) (by omega)⟩]
        exact ih (by omega) (by omega) fun j hj => hbody j (by omega)

theorem search_line_iff {s_len line_end fuel start : ℕ} (hfuel : line_end - start ≤ fuel) :
    search_line s data s_len line_end fuel start = true ↔
      ∃ check, start ≤ check ∧ check < line_end ∧ s 0 = data check ∧
        ece391_strncmp (fun i => data (check + i)) s s_len = 0 := by
  induction fuel generalizing start with
  | zero =>
      refine iff_of_false Bool.false_ne_true ?_
      rintro ⟨check, hle, hlt, -⟩
      omega
  | succ fuel ih =>
      unfold search_line
      split
      · rename_i hlt
        split
        · rename_i hfound
          exact iff_of_true rfl ⟨start, Nat.le_refl _, hlt, hfound⟩
        · rename_i hnot
          rw [ih (by omega)]
          constructor
          · rintro ⟨check, hle, hrest⟩
            exact ⟨check, by omega, hrest⟩
          · rintro ⟨check, hle, hrest⟩
            refine ⟨check, Nat.lt_of_le_of_ne hle ?_, hrest⟩
            rintro rfl
            exact hnot hrest.2
      · rename_i hge
        refine iff_of_false Bool.false_ne_true ?_
        rintro ⟨check, hle, hlt, -⟩
        omega

/-- **The search of one line**, which stands in the array with a terminator behind it. -/
theorem search_line_eq (hs : TextAt s pattern) {start : ℕ}
    (hline : TextAt (fun i => data (start + i)) line) {fuel : ℕ} (hfuel : line.length ≤ fuel) :
    search_line s data pattern.length (start + line.length) fuel start
      = decide (pattern ≠ [] ∧ pattern <:+: line) := by
  have hbyte : ∀ i (hi : i < line.length), data (start + i) = (line)[i] := by
    intro i hi
    exact (hline.bytes i (Nat.le_of_lt hi)).trans (c_str_eq hi)
  rw [Bool.eq_iff_iff, search_line_iff (by omega), decide_eq_true_eq, infix_iff_exists]
  constructor
  · rintro ⟨check, hle, hlt, hfirst, hcmp⟩
    have hall := hs.strncmp_eq_zero.mp hcmp
    obtain ⟨j, rfl⟩ : ∃ j, check = start + j := ⟨check - start, by omega⟩
    have hpos : data (start + j) ≠ 0 := hline.ne_zero (i := j) (by omega)
    refine ⟨?_, j, ?_, fun i hi => ?_⟩
    · -- the first byte of an empty pattern is its terminator
      rintro rfl
      exact hpos (hfirst ▸ hs.end_eq)
    · -- the pattern does not go over the terminator of the line
      by_contra hlong
      have hend := hall (line.length - j) (by omega)
      have hat : start + j + (line.length - j) = start + line.length := by omega
      have hzero := hline.end_eq
      rw [← hat] at hzero
      exact hs.no_terminator (hzero.symm.trans hend ▸ List.getElem_mem _)
    · have hlen : j + i < line.length := by
        by_contra hlong
        have hend := hall (line.length - j) (by omega)
        have hat : start + j + (line.length - j) = start + line.length := by omega
        have hzero := hline.end_eq
        rw [← hat] at hzero
        exact hs.no_terminator (hzero.symm.trans hend ▸ List.getElem_mem _)
      rw [List.getElem?_eq_getElem hlen, ← hall i hi, ← hbyte (j + i) hlen, Nat.add_assoc]
  · rintro ⟨hne, j, hlen, hall⟩
    have hpos := List.length_pos_iff.mpr hne
    have hat : ∀ i (hi : i < pattern.length), data (start + j + i) = pattern[i] := by
      intro i hi
      have hget := hall i hi
      rw [List.getElem?_eq_getElem (by omega), Option.some.injEq] at hget
      rw [← hget, Nat.add_assoc, hbyte (j + i) (by omega)]
    refine ⟨start + j, by omega, by omega, ?_, hs.strncmp_eq_zero.mpr hat⟩
    rw [hs.bytes 0 (Nat.zero_le _), c_str_eq hpos]
    exact (hat 0 hpos).symm

/-- **A line is printed** behind the name of its file. -/
theorem Stdout.put_line (h : Stdout k sheet) (hname : TextAt fname name) {buf : ℕ → UInt8}
    (hline : TextAt buf line) : ∃ k', put_line fname buf k = some k' ∧ Draws k k' ∧
      Stdout k' (printed sheet (name ++ ascii ":" ++ line ++ ascii "\n")) := by
  have hcolon : TextAt (c_str (ascii ":")) (ascii ":") := .c_str (by decide) (by decide)
  have hbreak : TextAt (c_str (ascii "\n")) (ascii "\n") := .c_str (by decide) (by decide)
  obtain ⟨k₁, hcall₁, hdraws₁, hout₁⟩ := h.fdputs hname
  obtain ⟨k₂, hcall₂, hdraws₂, hout₂⟩ := hout₁.fdputs hcolon
  obtain ⟨k₃, hcall₃, hdraws₃, hout₃⟩ := hout₂.fdputs hline
  obtain ⟨k₄, hcall₄, hdraws₄, hout₄⟩ := hout₃.fdputs hbreak
  refine ⟨k₄, ?_, ((hdraws₁.trans hdraws₂).trans hdraws₃).trans hdraws₄, ?_⟩
  · unfold LinuxLikeOS.put_line
    rw [hcall₁, Option.bind_some, hcall₂, Option.bind_some, hcall₃, Option.bind_some, hcall₄]
  · rw [printed_append, printed_append, printed_append] at hout₄
    rwa [List.append_assoc, List.append_assoc]

/-- **One line is treated.** -/
theorem Stdout.match_line (h : Stdout k sheet) (hs : TextAt s pattern) (hname : TextAt fname name)
    {start : ℕ} (hline : TextAt (fun i => data (start + i)) line) :
    ∃ k', (if search_line s data pattern.length (start + line.length) line.length start then
        LinuxLikeOS.put_line fname (fun i => data (start + i)) k else some k) = some k' ∧ Draws k k' ∧
      Stdout k' (printed sheet (matching_line pattern name line)) := by
  rw [search_line_eq hs hline (Nat.le_refl _)]
  unfold matching_line
  by_cases hmatch : pattern ≠ [] ∧ pattern <:+: line
  · rw [decide_eq_true hmatch, if_pos rfl, if_pos hmatch]
    exact h.put_line hname hline
  · rw [decide_eq_false hmatch, if_neg Bool.false_ne_true, if_neg hmatch]
    exact ⟨k, rfl, .refl k, h⟩

end

/-! ## One block -/

/-- The array before a read: the beginning of a line, and no line break behind the last byte. -/
structure Begun (data : ℕ → UInt8) (begun : List UInt8) : Prop where
  bytes : HoldsAt data 0 begun
  no_terminator : (0 : UInt8) ∉ begun
  no_break : END_OF_LINE ∉ begun
  length_lt : begun.length < BUFSIZE
  behind : data BUFSIZE ≠ END_OF_LINE

section

variable {s fname data : ℕ → UInt8} {pattern name text rest : List UInt8} {k : Kernel}
  {sheet : Sheet UInt8} {start : ℕ}

/-- A terminator is stored behind a line. -/
theorem textAt_terminated (h : HoldsAt data start text) (hzero : (0 : UInt8) ∉ text)
    (hlen : text.length < 2147483648) :
    TextAt (fun i => Function.update data (start + text.length) 0 (start + i)) text := by
  refine ⟨hzero, hlen, fun i hi => ?_⟩
  by_cases hend : i = text.length
  · subst hend
    rw [Function.update_self, c_str_end (Nat.le_refl _)]
  · rw [Function.update_of_ne (by omega), h i (by omega), c_str_eq (by omega)]

/-- **A line that goes on** is moved down to the beginning of the array. -/
theorem begun_moved (h : HoldsAt data start text) (hzero : (0 : UInt8) ∉ text)
    (hbreak : END_OF_LINE ∉ text) (hstart : start ≠ 0) (hlast : start + text.length ≤ BUFSIZE)
    (hbehind : data BUFSIZE ≠ END_OF_LINE) :
    Begun (ece391_strcpy 0 start (Function.update data (start + text.length) 0)) text := by
  have hsize : BUFSIZE = 1024 := rfl
  have hterm := textAt_terminated h hzero (by omega)
  have hcopy : ∀ j, ece391_strcpy 0 start (Function.update data (start + text.length) 0) j
      = if 0 ≤ j ∧ j ≤ 0 + text.length then
          Function.update data (start + text.length) 0 (start + (j - 0))
        else Function.update data (start + text.length) 0 j := by
    intro j
    refine strcpy_from_apply (by omega) (fun i hi => hterm.ne_zero hi) hterm.end_eq ?_ j
    unfold ADDRESS_SPACE
    omega
  refine ⟨fun i hi => ?_, hzero, hbreak, by omega, ?_⟩
  · rw [Nat.zero_add, hcopy, if_pos (by omega), Nat.sub_zero, Function.update_of_ne (by omega)]
    exact h i hi
  · rw [hcopy, if_neg (by omega)]
    by_cases hend : BUFSIZE = start + text.length
    · rw [hend, Function.update_self]
      decide
    · rwa [Function.update_of_ne hend]

theorem begun_nil (hbehind : data BUFSIZE ≠ END_OF_LINE) : Begun data [] where
  bytes i hi := absurd hi (Nat.not_lt_zero i)
  no_terminator := List.not_mem_nil
  no_break := List.not_mem_nil
  length_lt := by decide
  behind := hbehind

/-- A store below the byte behind the array, or a terminator there. -/
theorem behind_update (hbehind : data BUFSIZE ≠ END_OF_LINE) (i : ℕ) :
    Function.update data i 0 BUFSIZE ≠ END_OF_LINE := by
  by_cases hi : BUFSIZE = i
  · rw [← hi, Function.update_self]
    decide
  · rwa [Function.update_of_ne hi]

/-- Where a line ends that no break stands in. -/
theorem find_line_end_held (h : HoldsAt data start text) (hbreak : END_OF_LINE ∉ text) {last : ℕ}
    (hlast : start + text.length ≤ last)
    (hstop : start + text.length = last ∨ data (start + text.length) = END_OF_LINE) :
    find_line_end data last (last - start) start = start + text.length := by
  refine find_line_end_eq (by omega) hlast (by omega) (fun j hj hj' heq => ?_) hstop
  have hbyte := h (j - start) (by omega)
  rw [Nat.add_sub_cancel' hj, heq] at hbyte
  exact hbreak (hbyte ▸ List.getElem_mem _)

/-- **What no line ends in**: it goes on in the next block, or it is the last line, or it fills the
array and its break comes first in the next block. -/
theorem grep_lines_unbroken (hs : TextAt s pattern) (hname : TextAt fname name) (cnt : Int)
    (fuel start last : ℕ) (hcnt : cnt = 0 → rest = []) (hheld : HoldsAt data start text)
    (hzero : (0 : UInt8) ∉ text) (hno : END_OF_LINE ∉ text) (hlen : start + text.length = last)
    (hlast : last ≤ BUFSIZE) (hshort : last < BUFSIZE → rest = []) (hbehind : data BUFSIZE ≠ END_OF_LINE)
    (hfit : LinesFit END_OF_LINE BUFSIZE (text ++ rest)) (hout : Stdout k sheet) :
    ∃ data' begun k' o, grep_lines s fname pattern.length cnt (fuel + 1) start ⟨data, last, k⟩
        = some ⟨data', begun.length, k'⟩ ∧ Begun data' begun ∧ (cnt = 0 → begun = []) ∧
      LinesFit END_OF_LINE BUFSIZE (begun ++ rest) ∧
      o ++ matching_lines pattern name (begun ++ rest) = matching_lines pattern name (text ++ rest) ∧
      Draws k k' ∧ Stdout k' (printed sheet o) := by
  have hsize : BUFSIZE = 1024 := rfl
  have hempty := matching_line_nil pattern name
  unfold grep_lines
  dsimp only
  rw [find_line_end_held hheld hno (by omega) (Or.inl hlen)]
  split
  · rename_i hgo
    obtain ⟨-, hmore, hstart⟩ := hgo
    have hleft : last - start = text.length := by omega
    rw [hleft]
    exact ⟨_, text, k, [], rfl, begun_moved hheld hzero hno hstart (by omega) hbehind,
      fun hc => absurd hc hmore, hfit, List.nil_append _, .refl k, hout⟩
  · rename_i hstop
    obtain ⟨k', hcall, hdraws, hout'⟩ := hout.match_line hs hname (textAt_terminated hheld hzero (by omega))
    have hdone : LinesFit END_OF_LINE BUFSIZE rest ∧ matching_line pattern name text
        ++ matching_lines pattern name rest = matching_lines pattern name (text ++ rest) := by
      by_cases hrest : rest = []
      · subst hrest
        have hnil : matching_lines pattern name [] = [] := by
          unfold matching_lines
          rw [by_lines_nil, hempty]
        rw [List.append_nil, hnil, List.append_nil]
        exact ⟨(linesFit_of_notMem List.not_mem_nil).mpr (Nat.zero_le _), (by_lines_of_notMem hno).symm⟩
      · -- more is to come, so the block is full, and the line began with it
        have hfull : last = BUFSIZE := by
          by_contra hne
          exact hrest (hshort (by omega))
        have hstart : start = 0 := by
          by_contra hne
          refine hstop ⟨?_, fun hc => hrest (hcnt hc), hne⟩
          rwa [hlen, hfull]
        obtain ⟨hlines, hfits⟩ := hfit.flush (matching_line pattern name) hno (by omega) hempty
        exact ⟨hfits, hlines.symm⟩
    rw [Nat.add_sub_cancel_left, hcall, Option.bind_some, if_pos (by omega)]
    exact ⟨_, [], k', _, rfl, begun_nil (behind_update hbehind _), fun _ => rfl, hdone.1, hdone.2,
      hdraws, hout'⟩

/-- **The lines of one block**, by induction on the fuel of the loop: each round treats one line,
and the last one leaves the line that goes on in the next block. What has been put out then, and
what the next blocks put out for that line and the rest, is what the whole text has. -/
theorem grep_lines_spec (hs : TextAt s pattern) (hname : TextAt fname name) (cnt : Int)
    (fuel start last : ℕ) (hcnt : cnt = 0 → rest = []) (hheld : HoldsAt data start text)
    (hzero : (0 : UInt8) ∉ text) (hlen : start + text.length = last) (hlast : last ≤ BUFSIZE)
    (hshort : last < BUFSIZE → rest = []) (hbehind : data BUFSIZE ≠ END_OF_LINE)
    (hfit : LinesFit END_OF_LINE BUFSIZE (text ++ rest)) (hfuel : text.length < fuel)
    (hout : Stdout k sheet) :
    ∃ data' begun k' o, grep_lines s fname pattern.length cnt fuel start ⟨data, last, k⟩
        = some ⟨data', begun.length, k'⟩ ∧ Begun data' begun ∧ (cnt = 0 → begun = []) ∧
      LinesFit END_OF_LINE BUFSIZE (begun ++ rest) ∧
      o ++ matching_lines pattern name (begun ++ rest) = matching_lines pattern name (text ++ rest) ∧
      Draws k k' ∧ Stdout k' (printed sheet o) := by
  have hsize : BUFSIZE = 1024 := rfl
  induction fuel generalizing data start text k sheet with
  | zero => omega
  | succ fuel ih =>
      rcases exists_line END_OF_LINE text with hno | ⟨line, more, rfl, hno⟩
      · exact grep_lines_unbroken hs hname cnt fuel start last hcnt hheld hzero hno hlen hlast hshort
          hbehind hfit hout
      -- one line ends, and more may stand behind it
      rw [List.length_append, List.length_cons] at hlen hfuel
      rw [List.mem_append, List.mem_cons, not_or, not_or] at hzero
      obtain ⟨hline, hrest⟩ := holdsAt_append.mp hheld
      obtain ⟨hbreak, hmore⟩ := holdsAt_cons.mp hrest
      obtain ⟨k₁, hcall, hdraws, hout'⟩ := hout.match_line hs hname (textAt_terminated hline hzero.1 (by omega))
      rw [List.append_assoc, List.cons_append] at hfit ⊢
      obtain ⟨-, hfit'⟩ := (linesFit_cons hno).mp hfit
      have hlines : matching_lines pattern name (line ++ END_OF_LINE :: (more ++ rest))
          = matching_line pattern name line ++ matching_lines pattern name (more ++ rest) :=
        by_lines_cons hno _
      unfold grep_lines
      dsimp only
      rw [find_line_end_held hline hno (by omega) (Or.inr hbreak), if_neg (fun hgo => hgo.1 hbreak),
        Nat.add_sub_cancel_left, hcall, Option.bind_some]
      split
      · rename_i hge
        obtain rfl : more = [] := List.eq_nil_of_length_eq_zero (by omega)
        exact ⟨_, [], k₁, _, rfl, begun_nil (behind_update hbehind _), fun _ => rfl, hfit',
          hlines.symm, hdraws, hout'⟩
      · have hheld' : HoldsAt (Function.update data (start + line.length) 0) (start + line.length + 1)
            more := by
          intro i hi
          rw [Function.update_of_ne (by omega)]
          exact hmore i hi
        obtain ⟨data', begun, k', o, hloop, hbegun, hdone, hfit'', ho, hdraws', hout''⟩ :=
          ih (start + line.length + 1) hheld' hzero.2.2 (by omega) (behind_update hbehind _) hfit'
            (by omega) hout'
        refine ⟨data', begun, k', matching_line pattern name line ++ o, hloop, hbegun, hdone, hfit'',
          ?_, hdraws.trans hdraws', ?_⟩
        · rw [List.append_assoc, ho, hlines]
        · rwa [← printed_append]

end

/-! ## One file -/

/-- The bytes of a file. -/
def file_text (fs : file_sys) (d : dentry_t) : List UInt8 :=
  file_bytes fs (fs.inode d.inode_num) 0 (fs.inode d.inode_num).length

/-- A regular file that holds a text, whose position does not overflow. -/
structure TextFile (fs : file_sys) (name : List UInt8) (d : dentry_t) : Prop where
  found : read_dentry_by_name fs (c_str name) = some d
  regular : d.filetype = 2
  inode : d.inode_num < fs.boot_block.inode_count
  inode_count : fs.boot_block.inode_count < 4294967296
  length_lt : (fs.inode d.inode_num).length + 4096 < 2147483648
  no_terminator : (0 : UInt8) ∉ file_text fs d
  lines : LinesFit END_OF_LINE BUFSIZE (file_text fs d)

section

variable {fs : file_sys} {s fname data : ℕ → UInt8} {pattern name begun : List UInt8} {k : Kernel}
  {sheet : Sheet UInt8} {fd : Int} {inode_num pos : ℕ}

theorem holdsAt_read {text : List UInt8} (h : Begun data begun) :
    HoldsAt (store_at begun.length text data) 0 (begun ++ text) := by
  apply holdsAt_append.mpr
  constructor
  · intro i hi
    rw [Nat.zero_add, store_at_lt hi, ← h.bytes i hi, Nat.zero_add]
  · intro j hj
    rw [Nat.zero_add, store_at_mem hj]

/-- The rest of a file is what is read next and what comes after it. -/
theorem file_bytes_next (fs : file_sys) (ino : inode_t) (pos n : ℕ) :
    file_bytes fs ino pos (ino.length - pos) = file_bytes fs ino pos (min n (ino.length - pos))
      ++ file_bytes fs ino (pos + n) (ino.length - (pos + n)) := by
  have hcut := file_bytes_min fs ino pos n ino.length
  have hall : min (n + ino.length) (ino.length - pos) = ino.length - pos := by omega
  have hrest : min ino.length (ino.length - (pos + n)) = ino.length - (pos + n) := by omega
  rwa [hall, hrest] at hcut

/-- **The blocks of a file**, by induction on the fuel: every round but the last has read at least
one byte. -/
theorem grep_blocks_spec (hs : TextAt s pattern) (hname : TextAt fname name)
    (hino : inode_num < fs.boot_block.inode_count) (hsize : (fs.inode inode_num).length + 4096 < 2147483648)
    (hfd : 2 ≤ fd) (data_at fuel : ℕ) (hfile : FileAt fd inode_num pos k)
    (hpos : pos ≤ (fs.inode inode_num).length + BUFSIZE) (hbegun : Begun data begun)
    (hzero : (0 : UInt8) ∉ file_bytes fs (fs.inode inode_num) pos ((fs.inode inode_num).length - pos))
    (hfit : LinesFit END_OF_LINE BUFSIZE
      (begun ++ file_bytes fs (fs.inode inode_num) pos ((fs.inode inode_num).length - pos)))
    (hfuel : (fs.inode inode_num).length - pos < fuel) (hout : Stdout k sheet) :
    ∃ k', grep_blocks fs s fname pattern.length fd data_at fuel ⟨data, begun.length, k⟩ = some (0, k') ∧
      OnlyFd fd.toNat k k' ∧ ¬ (named_fd k' fd).in_use ∧
      Stdout k' (printed sheet (matching_lines pattern name
        (begun ++ file_bytes fs (fs.inode inode_num) pos ((fs.inode inode_num).length - pos)))) := by
  have hbuf : BUFSIZE = 1024 := rfl
  have hfdnat : fd.toNat ≠ 1 := by omega
  induction fuel generalizing data begun pos k sheet with
  | zero => omega
  | succ fuel ih =>
      have hlt := hbegun.length_lt
      have hcut := file_bytes_next fs (fs.inode inode_num) pos (BUFSIZE - begun.length)
      obtain ⟨k₁, hread, hfile₁, hout₁, hkeep₁⟩ := hfile.next (n := BUFSIZE - begun.length) hout hino
        (by omega) (data_at + begun.length)
      have hlen := length_file_bytes fs (fs.inode inode_num) pos
        (min (BUFSIZE - begun.length) ((fs.inode inode_num).length - pos))
      -- what is read now, and what is left for the next rounds
      generalize file_bytes fs (fs.inode inode_num) pos
        (min (BUFSIZE - begun.length) ((fs.inode inode_num).length - pos)) = bytes at hread hcut hlen
      generalize hrest : file_bytes fs (fs.inode inode_num) (pos + (BUFSIZE - begun.length))
        ((fs.inode inode_num).length - (pos + (BUFSIZE - begun.length))) = rest at hcut
      have hleft := length_file_bytes fs (fs.inode inode_num) (pos + (BUFSIZE - begun.length))
        ((fs.inode inode_num).length - (pos + (BUFSIZE - begun.length)))
      rw [hrest] at hleft
      rw [hcut] at hzero hfit ⊢
      rw [List.mem_append, not_or] at hzero
      rw [← List.append_assoc] at hfit ⊢
      have hnil : (fs.inode inode_num).length ≤ pos + (BUFSIZE - begun.length) → rest = [] :=
        fun h => List.eq_nil_of_length_eq_zero (by omega)
      rw [← hlen] at hread
      obtain ⟨data₂, begun₂, k₂, o, hloop, hbegun₂, hdone, hfit₂, ho, hdraws, hout₂⟩ :=
        grep_lines_spec hs hname bytes.length (BUFSIZE + 2) 0 (begun.length + bytes.length)
          (fun h => hnil (by omega))
          (holdsAt_read hbegun) (by
            rw [List.mem_append, not_or]
            exact ⟨hbegun.no_terminator, hzero.1⟩)
          (by rw [List.length_append, Nat.zero_add]) (by omega) (fun h => hnil (by omega)) (by
            rw [store_at_ge (by omega)]
            exact hbegun.behind) hfit (by rw [List.length_append]; omega) hout₁
      unfold grep_blocks
      dsimp only
      rw [hread, Option.bind_some]
      dsimp only
      rw [if_neg (by omega), Int.toNat_natCast, hloop, Option.bind_some]
      dsimp only
      have hkeep₂ := hkeep₁.trans (hdraws.onlyFd fd.toNat)
      have hfile₂ : FileAt fd inode_num (pos + (BUFSIZE - begun.length)) k₂ :=
        hfile₁.same (hdraws.named_fd fd)
      by_cases hcnt : (bytes.length : Int) = 0
      · -- the end of the file
        obtain rfl := hdone hcnt
        obtain rfl := hnil (by omega)
        obtain ⟨k₃, hclose, hclosed, hout₃, hkeep₃⟩ := hfile₂.close hout₂ hfd
        rw [if_pos hcnt, hclose, Option.bind_some]
        dsimp only
        rw [if_neg (by decide)]
        have hend : matching_lines pattern name [] = [] := by
          unfold matching_lines
          rw [by_lines_nil, matching_line_nil]
        rw [List.append_nil, hend, List.append_nil] at ho
        rw [← ho]
        exact ⟨k₃, rfl, hkeep₂.trans hkeep₃, hclosed, hout₃⟩
      · rw [if_neg hcnt]
        subst hrest
        obtain ⟨k', hblocks, hkeep', hclosed, hout'⟩ := ih hfile₂
          (by omega) hbegun₂ hzero.2 hfit₂ (by omega) hout₂
        refine ⟨k', hblocks, hkeep₂.trans hkeep', hclosed, ?_⟩
        rwa [printed_append, ho] at hout'

/-- **One file is searched** line by line, however its blocks cut the lines. -/
theorem do_one_file_spec {d : dentry_t} (hs : TextAt s pattern) (hname : TextAt fname name)
    (hfile : TextFile fs name d) (data_at : ℕ) (hdata : data BUFSIZE ≠ END_OF_LINE) {fuel i : ℕ}
    (hfuel : (fs.inode d.inode_num).length < fuel) (hfree : free_fd (get_pcb k k.curr_pid) = some i)
    (hout : Stdout k sheet) :
    ∃ k', do_one_file fs s fname data_at data fuel k = some (0, k') ∧ OnlyFd i k k' ∧
      ¬ (table k' k.curr_pid i).in_use ∧
      Stdout k' (printed sheet (matching_lines pattern name (file_text fs d))) := by
  have hmin : 2 ≤ i := (free_fd_eq_some.mp hfree).lower
  have hinode := hfile.inode
  have hcount := hfile.inode_count
  obtain ⟨k₁, hopen, hfile₁, hout₁, hkeep₁⟩ :=
    hout.open_file hname hfile.found hfile.regular (by omega) hfree
  obtain ⟨k', hblocks, hkeep', hclosed, hout'⟩ := grep_blocks_spec hs hname hinode hfile.length_lt
    (by omega) data_at fuel hfile₁ (Nat.zero_le _) (begun_nil hdata) hfile.no_terminator
    hfile.lines hfuel hout₁
  have hkeep := hkeep₁.trans hkeep'
  refine ⟨k', ?_, hkeep, ?_, hout'⟩
  · unfold do_one_file
    dsimp only
    rw [hopen, Option.bind_some]
    dsimp only
    rw [if_neg (by omega), hs.strlen]
    exact hblocks
  · rwa [← hkeep.curr_pid]

end

/-! ## All files -/

/-- What is printed for an entry of the directory. -/
def matching_entry (fs : file_sys) (pattern : List UInt8) (d : dentry_t) : List UInt8 :=
  if d.filename 0 = 0x2E then [] else matching_lines pattern (entry_name d) (file_text fs d)

section

variable {fs : file_sys} {s : ℕ → UInt8} {pattern : List UInt8} {k : Kernel} {sheet : Sheet UInt8}

/-- The name of an entry, as `read` stores it and the program ends it. -/
theorem textAt_entry (d : dentry_t) (buf : ℕ → UInt8) :
    TextAt (Function.update (store_bytes ((List.range FILENAME_LEN).map d.filename) buf) FILENAME_LEN 0)
      (entry_name d) := by
  have hmax : FILENAME_LEN = 32 := rfl
  have hzero : (0 : UInt8) ∉ entry_name d := by
    intro hmem
    have hall := List.all_eq_true.mp (List.all_takeWhile (p := fun c : UInt8 => decide (c ≠ 0))) 0 hmem
    simp at hall
  have hlen : (entry_name d).length ≤ FILENAME_LEN := by
    have hle := (List.takeWhile_prefix (· ≠ 0) (l := (List.range FILENAME_LEN).map d.filename)).length_le
    rwa [List.length_map, List.length_range] at hle
  obtain ⟨hbody, hend⟩ := (takeWhile_map_range_eq (s := d.filename) hlen hzero).mp rfl
  refine ⟨hzero, by omega, fun i hi => ?_⟩
  by_cases hlast : i = FILENAME_LEN
  · rw [hlast, Function.update_self, c_str_end hlen]
  · rw [Function.update_of_ne hlast, store_bytes_filename d buf (by omega)]
    by_cases hin : i < (entry_name d).length
    · rw [hbody i hin, c_str_eq hin]
    · obtain rfl : i = (entry_name d).length := by omega
      rw [c_str_end (Nat.le_refl _)]
      exact hend (by omega)

/-- No descriptor is open from `i` on. -/
def FreeFrom (i : ℕ) (k : Kernel) : Prop :=
  ∀ j, i ≤ j → j < FILE_DESCRIPTOR_MAX → ¬ (table k k.curr_pid j).in_use

theorem FreeFrom.free_fd {i : ℕ} (h : FreeFrom i k) (hmin : 2 ≤ i) (hmax : i < FILE_DESCRIPTOR_MAX)
    (hbelow : ∀ j, 2 ≤ j → j < i → (table k k.curr_pid j).in_use) :
    free_fd (get_pcb k k.curr_pid) = some i :=
  free_fd_eq_some.mpr ⟨hmin, hmax, h i (Nat.le_refl i) hmax, hbelow⟩

/-- **The loop over the directory**, by induction on the entries that are left. -/
theorem grep_entries_spec (hs : TextAt s pattern) (buf_at data_at : ℕ) {stack : ℕ → ℕ → UInt8}
    (hstack : ∀ i, stack i BUFSIZE ≠ END_OF_LINE) {fuel n rounds : ℕ}
    (hfiles : ∀ j < fs.boot_block.dir_count, (fs.boot_block.direntries j).filename 0 = 0x2E ∨
      TextFile fs (entry_name (fs.boot_block.direntries j)) (fs.boot_block.direntries j))
    (hfuel : ∀ j < fs.boot_block.dir_count,
      (fs.inode (fs.boot_block.direntries j).inode_num).length < fuel)
    (hrounds : fs.boot_block.dir_count - n < rounds) (hdir : DirectoryAt 2 n k)
    (hfree : FreeFrom 3 k) (buf : ℕ → UInt8) (hout : Stdout k sheet) :
    ∃ k', grep_entries fs s 2 buf_at data_at stack fuel rounds buf k = some (0, k') ∧
      Stdout k' (printed sheet ((List.range' n (fs.boot_block.dir_count - n)).flatMap fun j =>
        matching_entry fs pattern (fs.boot_block.direntries j))) := by
  induction rounds generalizing n buf k sheet with
  | zero => omega
  | succ rounds ih =>
      obtain ⟨k₁, hread, hnext, hout₁, hpcb, hpid⟩ := hdir.next hout buf_at (SBUFSIZE - 1 : ℕ)
      unfold grep_entries
      rw [hread, Option.bind_some]
      by_cases hlt : n < fs.boot_block.dir_count
      · have hleft : fs.boot_block.dir_count - n = (fs.boot_block.dir_count - (n + 1)) + 1 := by omega
        have hdir₁ := hnext hlt
        have hfree₁ : FreeFrom 3 k₁ := by
          intro j
          unfold table
          rw [hpcb, hpid]
          exact hfree j
        have hfirst : ∀ buf, store_bytes ((List.range FILENAME_LEN).map
            (fs.boot_block.direntries n).filename) buf 0 = (fs.boot_block.direntries n).filename 0 :=
          fun _ => rfl
        rw [if_pos hlt, hleft, List.range'_succ, List.flatMap_cons, ← printed_append]
        dsimp only
        rw [if_neg (by decide), if_neg (by decide), hfirst]
        unfold matching_entry
        by_cases hdot : (fs.boot_block.direntries n).filename 0 = 0x2E
        · rw [if_pos hdot, if_pos hdot]
          exact ih (by omega) hdir₁ hfree₁ _ hout₁
        · have hfile := (hfiles n hlt).resolve_left hdot
          have hopen := hfree₁.free_fd (by decide) (by decide) fun j hj hj' => by
            obtain rfl : j = 2 := by omega
            exact hdir₁.readable.2
          obtain ⟨k₂, hone, hkeep, hclosed, hout₂⟩ := do_one_file_spec hs
            (textAt_entry (fs.boot_block.direntries n) buf) hfile data_at (hstack rounds) (hfuel n hlt)
            hopen hout₁
          have hfree₂ : FreeFrom 3 k₂ := by
            intro j hj hj'
            rw [hkeep.curr_pid]
            by_cases hthree : j = 3
            · rwa [hthree]
            · rw [hkeep.fds j hthree]
              exact hfree₁ j hj hj'
          have hname : (FILENAME_LEN : Int).toNat = FILENAME_LEN := rfl
          rw [if_neg hdot, if_neg hdot, hname, hone, Option.bind_some]
          dsimp only
          rw [if_neg (by decide)]
          exact ih (by omega) (hdir₁.same (hkeep.named_fd (by decide)) hkeep.dentry_counter) hfree₂ _ hout₂
      · have hleft : fs.boot_block.dir_count - n = 0 := by omega
        rw [if_neg hlt, hleft]
        exact ⟨k₁, rfl, hout₁⟩

/-- The argument, as a program finds it in its buffer. -/
theorem ArgsString.getargs_text (hargs : ArgsString pattern k) (hne : pattern ≠ [])
    (hlen : pattern.length < BUFSIZE) (buf : ℕ → UInt8) :
    (system_getargs BUFSIZE k).1 = 0 ∧ TextAt (getargs_buffer BUFSIZE k buf) pattern := by
  have hsize : BUFSIZE = 1024 := rfl
  have hfits : ¬ (u32 (BUFSIZE : ℕ) < u32 ((pattern.length : Int) + 1) ∨ pattern = []) := by
    rintro (hlt | hnil)
    · have hlarge : u32 ((pattern.length : Int) + 1) = pattern.length + 1 := by
        rw [← Int.natCast_succ, u32_of_lt (by omega)]
      rw [hlarge, u32_of_lt (by decide)] at hlt
      omega
    · exact hne hnil
  refine ⟨by rw [hargs.getargs_copied hfits], hargs.no_terminator, by omega, fun i hi => ?_⟩
  rw [hargs.getargs_buffer_apply hfits, u32_of_lt (by decide), if_pos (by omega)]
  exact hargs.text i hi

/-- **`grep` prints the matching lines of all files.** A process that has no file open, with the
listing at its beginning and the pattern as its argument, prints what matches in the files of the
directory, in order, when these are texts with lines that fit the buffer and the stack does not
hold a line break behind the array. -/
theorem grep_prints_matches (search buf : ℕ → UInt8) (buf_at data_at : ℕ) (stack : ℕ → ℕ → UInt8)
    (fuel rounds : ℕ) (hstack : ∀ i, stack i BUFSIZE ≠ END_OF_LINE) {d : dentry_t}
    (hargs : ArgsString pattern k) (hne : pattern ≠ []) (hlen : pattern.length < BUFSIZE)
    (hdot : read_dentry_by_name fs (c_str (ascii ".")) = some d) (htype : d.filetype = 1)
    (hfiles : ∀ j < fs.boot_block.dir_count, (fs.boot_block.direntries j).filename 0 = 0x2E ∨
      TextFile fs (entry_name (fs.boot_block.direntries j)) (fs.boot_block.direntries j))
    (hfuel : ∀ j < fs.boot_block.dir_count,
      (fs.inode (fs.boot_block.direntries j).inode_num).length < fuel)
    (hrounds : fs.boot_block.dir_count < rounds) (hfree : FreeFrom 2 k)
    (hcounter : k.dentry_counter = 0) (hout : Stdout k sheet) :
    ∃ k', grep_main fs search buf buf_at data_at stack fuel rounds k = some (0, k') ∧
      Stdout k' (printed sheet ((List.range fs.boot_block.dir_count).flatMap fun j =>
        matching_entry fs pattern (fs.boot_block.direntries j))) := by
  obtain ⟨hargc, hsearch⟩ := hargs.getargs_text hne hlen search
  have hdotname : TextAt (c_str (ascii ".")) (ascii ".") := .c_str (by decide) (by decide)
  have hslot := hfree.free_fd (Nat.le_refl 2) (by decide) fun j hj hj' => absurd hj' (by omega)
  obtain ⟨k₁, hopen, hdir, hout₁, hkeep⟩ := hout.open_directory hdotname hdot htype hslot
  rw [hcounter] at hdir
  have hfree₁ : FreeFrom 3 k₁ := by
    intro j hj hj'
    rw [hkeep.curr_pid, hkeep.fds j (by omega)]
    exact hfree j (by omega) hj'
  obtain ⟨k', hloop, hout'⟩ := grep_entries_spec hsearch buf_at data_at hstack hfiles hfuel
    (by omega) hdir hfree₁ buf hout₁
  refine ⟨k', ?_, ?_⟩
  · unfold grep_main
    dsimp only
    rw [hargc, if_neg (not_not.mpr rfl), hopen, Option.bind_some]
    exact hloop
  · rwa [Nat.sub_zero, ← List.range_eq_range'] at hout'

end

/-- A directory with one text of three lines. -/
def notes_fs : file_sys where
  boot_block :=
    { dir_count := 2
      inode_count := 1
      direntries := fun i =>
        if i = 0 then ⟨c_str (ascii "."), 1, 0⟩
        else if i = 1 then ⟨c_str (ascii "b"), 2, 0⟩
        else ⟨fun _ => 0, 0, 0⟩ }
  inode := fun _ => ⟨8, fun _ => 0⟩
  data_block := fun _ => c_str (ascii "ab\na\ncbd")

theorem demo_front_displays (t : Terminal) : Displays demo_front t Sheet.blank := by
  obtain ⟨stack, hinv, -⟩ := demo_started.process_table
  obtain ⟨c, hperform⟩ := kstep_eq_some.mp demo_front_step
  rw [perform_tick hinv.flag hperform]
  exact (demo_started.displays t).congr rfl rfl rfl rfl

/-- A process that has just been started with the argument `b`. -/
theorem demo_process : ∃ k, new_process (system_execute demo_env (some (ascii "shell b"))
    (demo_frame 4 4) demo_front) = some k ∧ ArgsString (ascii "b") k ∧ FreeFrom 2 k ∧
      k.dentry_counter = 0 ∧ Stdout k .blank := by
  obtain ⟨k, hk⟩ := Option.isSome_iff_exists.mp
    (by decide +kernel : (new_process (system_execute demo_env (some (ascii "shell b"))
      (demo_frame 4 4) demo_front)).isSome = true)
  have hvalues : ∀ k ∈ new_process (system_execute demo_env (some (ascii "shell b"))
      (demo_frame 4 4) demo_front), (k.DISPLAY_ON_MAIN_PAGE = 0 ∧ k.dentry_counter = 0) ∧
        ((List.range 6).map fun j => (table k k.curr_pid (j + 2)).flags) = List.replicate 6 NOT_IN_USE ∧
        ((table k k.curr_pid 1).flags = IN_USE ∧
          (table k k.curr_pid 1).file_op_table_ptr = .term_write_ops) ∧
        args_text k k.curr_pid 0 = 98 ∧ args_text k k.curr_pid 1 = 0 := by
    decide +kernel
  obtain ⟨⟨hdisplay, hcounter⟩, hflags, ⟨hstdout, hops⟩, harg, hend⟩ := hvalues k hk
  have hargs : ArgsString (ascii "b") k := by
    refine ⟨by decide, by decide, fun i hi => ?_⟩
    match i, hi with
    | 0, _ => exact harg
    | 1, _ => exact hend
  have hfree : FreeFrom 2 k := by
    intro j hj hj'
    have hj' : j < 8 := hj'
    have hflag : (table k k.curr_pid j).flags = NOT_IN_USE := by
      have hmem : (table k k.curr_pid j).flags
          ∈ (List.range 6).map fun j => (table k k.curr_pid (j + 2)).flags :=
        List.mem_map.mpr ⟨j - 2, List.mem_range.mpr (by omega), by rw [Nat.sub_add_cancel hj]⟩
      rw [hflags] at hmem
      exact List.eq_of_mem_replicate hmem
    exact not_not.mpr hflag
  have hout : Stdout k .blank := by
    refine ⟨⟨by decide, ?_⟩, hops, hdisplay, (demo_front_displays _).executed hk⟩
    show (table k k.curr_pid 1).flags ≠ NOT_IN_USE
    rw [hstdout]
    decide
  exact ⟨k, hk, hargs, hfree, hcounter, hout⟩

/-- The search for `b`, by a process that has just been started. -/
theorem grep_prints_matches_demo : ∃ k k',
    new_process (system_execute demo_env (some (ascii "shell b")) (demo_frame 4 4) demo_front) = some k ∧
      grep_main notes_fs (fun _ => 0) (fun _ => 0) demo_buf demo_buf (fun _ _ => 0) 9 3 k = some (0, k') ∧
      Stdout k' (printed .blank (ascii "b:ab\nb:cbd\n")) := by
  obtain ⟨k, hk, hargs, hfree, hcounter, hout⟩ := demo_process
  have hfiles : ∀ j < notes_fs.boot_block.dir_count,
      (notes_fs.boot_block.direntries j).filename 0 = 0x2E ∨
        TextFile notes_fs (entry_name (notes_fs.boot_block.direntries j))
          (notes_fs.boot_block.direntries j) := by
    intro j hj
    have hj : j < 2 := hj
    match j, hj with
    | 0, _ => exact Or.inl rfl
    | 1, _ => exact Or.inr ⟨rfl, rfl, by decide, by decide, by decide, by decide, by decide⟩
  obtain ⟨k', hgrep, hout'⟩ := grep_prints_matches (fun _ => 0) (fun _ => 0) demo_buf demo_buf (fun _ _ => 0) 9 3
    (fun _ => by decide) hargs (by decide) (by decide)
    (d := ⟨c_str (ascii "."), 1, 0⟩) rfl rfl hfiles (fun _ _ => (by decide : 8 < 9)) (by decide) hfree
    hcounter hout
  have htext : ((List.range notes_fs.boot_block.dir_count).flatMap fun j =>
      matching_entry notes_fs (ascii "b") (notes_fs.boot_block.direntries j))
        = ascii "b:ab\nb:cbd\n" := by
    decide +kernel
  rw [htext] at hout'
  exact ⟨k, k', hk, hgrep, hout'⟩

end LinuxLikeOS
