/-
`memset` and `memcpy` of `lib.c`, as they are written: the lines of their assembly.

Both have one shape. Bytes go one at a time until the destination is aligned or none is
left, then double words with a string instruction, then the up to three bytes that remain.
`word_loop` is that shape, and what its parts do to the memory comes in as `Moves`: the
memory after `i` bytes is that of the byte loop, whatever brought it there.
-/
import LinuxLikeOS.CLib
import LinuxLikeOS.Ia32

set_option autoImplicit false

namespace LinuxLikeOS

open Ia32 StateTransition

/-! ## The assembly -/

/-- The labels: `.memset_top` and `.memcpy_top`, and so on. -/
inductive AsmLabel
  | top | aligned | bottom | done
  deriving DecidableEq

def memset_asm : List (Line AsmLabel) :=
  [.label .top,
   .instr (.testl (.reg .ecx) .ecx),
   .jz .done,
   .instr (.testl (.imm 0x3) .edi),
   .jz .aligned,
   .instr (.movb_store .al .edi),
   .instr (.addl (.imm 1) .edi),
   .instr (.subl (.imm 1) .ecx),
   .jmp .top,
   .label .aligned,
   .instr (.movw_of_seg .ds .dx),
   .instr (.movw_to_seg .dx .es),
   .instr (.movl (.reg .ecx) .edx),
   .instr (.shrl 2 .ecx),
   .instr (.andl (.imm 0x3) .edx),
   .instr .cld,
   .rep .stosl,
   .label .bottom,
   .instr (.testl (.reg .edx) .edx),
   .jz .done,
   .instr (.movb_store .al .edi),
   .instr (.addl (.imm 1) .edi),
   .instr (.subl (.imm 1) .edx),
   .jmp .bottom,
   .label .done]

def memcpy_asm : List (Line AsmLabel) :=
  [.label .top,
   .instr (.testl (.reg .ecx) .ecx),
   .jz .done,
   .instr (.testl (.imm 0x3) .edi),
   .jz .aligned,
   .instr (.movb_load .esi .al),
   .instr (.movb_store .al .edi),
   .instr (.addl (.imm 1) .edi),
   .instr (.addl (.imm 1) .esi),
   .instr (.subl (.imm 1) .ecx),
   .jmp .top,
   .label .aligned,
   .instr (.movw_of_seg .ds .dx),
   .instr (.movw_to_seg .dx .es),
   .instr (.movl (.reg .ecx) .edx),
   .instr (.shrl 2 .ecx),
   .instr (.andl (.imm 0x3) .edx),
   .instr .cld,
   .rep .movsl,
   .label .bottom,
   .instr (.testl (.reg .edx) .edx),
   .jz .done,
   .instr (.movb_load .esi .al),
   .instr (.movb_store .al .edi),
   .instr (.addl (.imm 1) .edi),
   .instr (.addl (.imm 1) .esi),
   .instr (.subl (.imm 1) .edx),
   .jmp .bottom,
   .label .done]

/-- The operands of `memset`: the low byte of `c` in all four bytes of `eax`. -/
def memset_operands (dest c n : BitVec 32) (s : State) : State :=
  let c := c &&& 0xFF
  ((s.set .eax (c <<< 24 ||| c <<< 16 ||| c <<< 8 ||| c)).set .edi dest).set .ecx n

def memcpy_operands (dest src n : BitVec 32) (s : State) : State :=
  ((s.set .esi src).set .edi dest).set .ecx n

/-! ## The byte loops -/

/-- `for (i = 0; i < n; i++) dest[i] = c`. -/
def set_bytes (dest : BitVec 32) (c : UInt8) (n : ℕ) (m : Memory) : Memory :=
  for_loop (fun i m => Function.update m (dest + BitVec.ofNat 32 i) c) n m

/-- `for (i = 0; i < n; i++) dest[i] = src[i]`. -/
def copy_bytes (dest src : BitVec 32) (n : ℕ) (m : Memory) : Memory :=
  for_loop (fun i m => Function.update m (dest + BitVec.ofNat 32 i) (m (src + BitVec.ofNat 32 i)))
    n m

theorem add_ofNat_inj {a : BitVec 32} {i j : ℕ} (hi : i < 2 ^ 32) (hj : j < 2 ^ 32)
    (h : a + BitVec.ofNat 32 i = a + BitVec.ofNat 32 j) : i = j := by
  have hnat := congrArg BitVec.toNat (BitVec.add_right_inj a |>.mp h)
  rwa [BitVec.toNat_ofNat, BitVec.toNat_ofNat, Nat.mod_eq_of_lt hi, Nat.mod_eq_of_lt hj] at hnat

/-- The bytes from `a` on are stored, and no other byte changes. -/
structure Stored (a : BitVec 32) (n : ℕ) (f : ℕ → UInt8) (m m' : Memory) : Prop where
  bytes : ∀ i, i < n → m' (a + BitVec.ofNat 32 i) = f i
  others : ∀ x, (∀ i, i < n → x ≠ a + BitVec.ofNat 32 i) → m' x = m x

theorem Stored.next {a : BitVec 32} {n : ℕ} {f : ℕ → UInt8} {m m' : Memory}
    (h : Stored a n f m m') (hn : n < 2 ^ 32) :
    Stored a (n + 1) f m (Function.update m' (a + BitVec.ofNat 32 n) (f n)) where
  bytes i hi := by
    by_cases hlast : i = n
    · subst hlast
      exact Function.update_self _ _ _
    · rw [Function.update_of_ne fun heq => hlast (add_ofNat_inj (by omega) hn heq)]
      exact h.bytes i (by omega)
  others x hx := by
    rw [Function.update_of_ne (hx n (Nat.lt_succ_self n))]
    exact h.others x fun i hi => hx i (Nat.lt_succ_of_lt hi)

theorem stored_zero (a : BitVec 32) (f : ℕ → UInt8) (m : Memory) : Stored a 0 f m m where
  bytes i hi := absurd hi (Nat.not_lt_zero i)
  others _ _ := rfl

theorem stored_set_bytes (dest : BitVec 32) (c : UInt8) {n : ℕ} (hn : n ≤ 2 ^ 32) (m : Memory) :
    Stored dest n (fun _ => c) m (set_bytes dest c n m) := by
  refine for_loop_invariant (fun i m' => Stored dest i (fun _ => c) m m') (stored_zero _ _ _) ?_
  intro i m' hi h
  exact h.next (by omega)

/-- No byte of the one range is in the other. -/
def Apart (a b : BitVec 32) (n : ℕ) : Prop :=
  ∀ i j, i < n → j < n → a + BitVec.ofNat 32 i ≠ b + BitVec.ofNat 32 j

/-- The loop does not store over its source. -/
theorem copy_bytes_src {dest src : BitVec 32} {n j k : ℕ} (h : Apart dest src n) (hj : j ≤ n)
    (hk : k < n) (m : Memory) :
    copy_bytes dest src j m (src + BitVec.ofNat 32 k) = m (src + BitVec.ofNat 32 k) := by
  refine for_loop_invariant
    (fun _ (m' : Memory) => m' (src + BitVec.ofNat 32 k) = m (src + BitVec.ofNat 32 k)) rfl ?_
  intro i m' hi hm
  rw [Function.update_of_ne (h i k (by omega) hk).symm]
  exact hm

theorem stored_copy_bytes {dest src : BitVec 32} {n : ℕ} (hn : n ≤ 2 ^ 32) (h : Apart dest src n)
    (m : Memory) :
    Stored dest n (fun i => m (src + BitVec.ofNat 32 i)) m (copy_bytes dest src n m) := by
  have hupto : ∀ j, j ≤ n →
      Stored dest j (fun i => m (src + BitVec.ofNat 32 i)) m (copy_bytes dest src j m) := by
    intro j
    induction j with
    | zero => exact fun _ => stored_zero _ _ _
    | succ j ih =>
        intro hj
        have hnext := (ih (by omega)).next (by omega)
        rw [← copy_bytes_src h (by omega) (by omega) m (j := j)] at hnext
        exact hnext
  exact hupto n (Nat.le_refl n)

theorem add_ofNat_add (a : BitVec 32) (i k : ℕ) :
    a + BitVec.ofNat 32 (i + k) = a + BitVec.ofNat 32 i + BitVec.ofNat 32 k := by
  rw [BitVec.ofNat_add, BitVec.add_assoc]

/-- A double word of equal bytes is four rounds of the loop. -/
theorem set_bytes_word {dest w : BitVec 32} {c : UInt8} (hw : ∀ k, k < 4 → byte_of w k = c) (i : ℕ)
    (m : Memory) : set_bytes dest c (i + 4) m
      = store32 (set_bytes dest c i m) (dest + BitVec.ofNat 32 i) w := by
  unfold store32
  rw [hw 0 (by omega), hw 1 (by omega), hw 2 (by omega), hw 3 (by omega)]
  simp only [set_bytes, for_loop, add_ofNat_add dest i]
  rfl

/-- So is a double word that is copied, as what is stored is not read again. -/
theorem copy_bytes_word {dest src : BitVec 32} {n i : ℕ} (h : Apart dest src n) (hi : i + 4 ≤ n)
    (m : Memory) : copy_bytes dest src (i + 4) m
      = store32 (copy_bytes dest src i m) (dest + BitVec.ofNat 32 i)
          (load32 (copy_bytes dest src i m) (src + BitVec.ofNat 32 i)) := by
  have hread : ∀ j k, j < 4 → k < 4 →
      copy_bytes dest src (i + j) m (src + BitVec.ofNat 32 (i + k))
        = m (src + BitVec.ofNat 32 (i + k)) :=
    fun j k hj hk => copy_bytes_src h (by omega) (by omega) m
  have hword : ∀ k, k < 4 → byte_of (load32 (copy_bytes dest src i m) (src + BitVec.ofNat 32 i)) k
      = copy_bytes dest src (i + k) m (src + BitVec.ofNat 32 (i + k)) := by
    intro k hk
    rw [byte_of_load32 _ _ hk, ← add_ofNat_add, hread k k hk hk, ← hread 0 k (by omega) hk,
      Nat.add_zero]
  unfold store32
  rw [hword 0 (by omega), hword 1 (by omega), hword 2 (by omega), hword 3 (by omega)]
  simp only [copy_bytes, for_loop, add_ofNat_add dest i]
  rfl

/-! ## The loop of both -/

section

variable (byte : List Instr) (op : StringOp)

/-- A byte, with the counter that goes down. -/
def counted (c : Reg) : List Instr := byte ++ [Instr.subl (.imm 1) c]

/-- The lines behind `.label .bottom`. -/
def bottom_lines : List (Line AsmLabel) :=
  .instr (.testl (.reg .edx) .edx) :: .jz .done ::
    ((counted byte .edx).map .instr ++ [.jmp .bottom, .label .done])

/-- From the bytes to the double words. -/
def align : List Instr :=
  [.movw_of_seg .ds .dx, .movw_to_seg .dx .es, .movl (.reg .ecx) .edx, .shrl 2 .ecx,
    .andl (.imm 0x3) .edx, .cld]

/-- The lines behind `.label .aligned`. -/
def aligned_lines : List (Line AsmLabel) :=
  align.map .instr ++ .rep op :: .label .bottom :: bottom_lines byte

/-- The lines behind `.label .top`. -/
def top_lines : List (Line AsmLabel) :=
  .instr (.testl (.reg .ecx) .ecx) :: .jz .done ::
    .instr (.testl (.imm 0x3) .edi) :: .jz .aligned ::
    ((counted byte .ecx).map .instr ++ .jmp .top :: .label .aligned ::
      aligned_lines byte op)

/-- Bytes, then double words, then bytes. -/
def word_loop : List (Line AsmLabel) := .label .top :: top_lines byte op

end

theorem memset_asm_eq :
    memset_asm = word_loop [.movb_store .al .edi, .addl (.imm 1) .edi] .stosl := rfl

theorem memcpy_asm_eq : memcpy_asm = word_loop [.movb_load .esi .al, .movb_store .al .edi,
    .addl (.imm 1) .edi, .addl (.imm 1) .esi] .movsl := rfl

/-- What the counters, the flags and the moves between segment registers leave alone. -/
structure SameData (s s' : State) : Prop where
  mem : s'.mem = s.mem
  ds : s'.seg .ds = s.seg .ds
  reg : ∀ r, r ≠ .ecx → r ≠ .edx → s'.reg r = s.reg r

/-- A byte at a time or a double word at a time, it comes to the same: `P i` holds when `i`
of the `n` bytes are done. -/
structure Moves (base : BitVec 16 → BitVec 32) (byte : List Instr) (op : StringOp) (n : ℕ)
    (P : ℕ → State → Prop) : Prop where
  frame : ∀ {i s s'}, P i s → SameData s s' → P i s'
  one : ∀ {i s}, P i s → i < n → P (i + 1) (exec_block base byte s)
  counters : ∀ {s r}, r = .ecx ∨ r = .edx → (exec_block base byte s).reg r = s.reg r
  four : ∀ {i s}, P i s → i + 4 ≤ n → s.seg .es = s.seg .ds → s.df = false →
    ∃ s', string_step base op s = some s' ∧ P (i + 4) s'

/-- The bytes that are done and those that are left make up the request. -/
def Counted (P : ℕ → State → Prop) (n left : ℕ) (s : State) : Prop := ∃ i, P i s ∧ i + left = n

/-- Before a double word: the segments agree, the direction is upwards, and `ecx` counts the
double words that are left. -/
def Divided (P : ℕ → State → Prop) (n : ℕ) (s : State) : Prop :=
  Counted P n (4 * (s.reg .ecx).toNat + (s.reg .edx).toNat) s ∧ s.seg .es = s.seg .ds ∧ s.df = false

theorem sameData_zf (s : State) (b : Bool) : SameData s { s with zf := b } :=
  ⟨rfl, rfl, fun _ _ _ => rfl⟩

theorem sameData_set {r : Reg} (hr : r = .ecx ∨ r = .edx) (s : State) (v : BitVec 32) :
    SameData s (s.set r v) := by
  refine ⟨rfl, rfl, fun r' hecx hedx => State.set_reg_ne s v ?_⟩
  rintro rfl
  exact hr.elim hecx hedx

theorem sameData_result {r : Reg} (hr : r = .ecx ∨ r = .edx) (s : State) (v : BitVec 32) :
    SameData s (s.result r v) :=
  let hset := sameData_set hr s v
  ⟨hset.mem, hset.ds, hset.reg⟩

/-- Before the double words the segments agree, the direction is upwards, and the request is
divided. -/
theorem exec_align (base : BitVec 16 → BitVec 32) (s : State) :
    SameData s (exec_block base align s) ∧
      (exec_block base align s).seg .es = (exec_block base align s).seg .ds ∧
      (exec_block base align s).df = false ∧
      (exec_block base align s).reg .ecx = s.reg .ecx >>> 2 ∧
      (exec_block base align s).reg .edx = s.reg .ecx &&& 0x3 := by
  have hhalf := State.half_set_half s .dx (s.seg .ds)
  have hds : (exec_block base align s).seg .ds = s.seg .ds := rfl
  refine ⟨⟨rfl, hds, fun r hecx hedx => ?_⟩, ?_, rfl, ?_, ?_⟩
  · simp [exec_block, align, exec, State.set_half, State.result, Reg16.whole, hecx, hedx]
  · rw [hds]
    exact hhalf
  · simp [exec_block, align, exec, State.set_half, State.result, Reg16.whole, Operand.value]
  · simp [exec_block, align, exec, State.set_half, State.result, Reg16.whole, Operand.value]

/-- A double word is four bytes, and up to three are left. -/
theorem toNat_divided (x : BitVec 32) : 4 * (x >>> 2).toNat + (x &&& 0x3).toNat = x.toNat := by
  have hmask : (0x3 : BitVec 32).toNat = 2 ^ 2 - 1 := rfl
  rw [BitVec.toNat_ushiftRight, BitVec.toNat_and, hmask, Nat.and_two_pow_sub_one_eq_mod,
    Nat.shiftRight_eq_div_pow]
  omega

namespace Moves

variable {base : BitVec 16 → BitVec 32} {byte : List Instr} {op : StringOp} {n : ℕ}
  {P : ℕ → State → Prop} {p target : List (Line AsmLabel)}

/-- A byte, its counter goes down, and the loop goes round. -/
theorem round (h : Moves base byte op n P) {c : Reg} (hc : c = .ecx ∨ c = .edx) {l : AsmLabel}
    (hl : goto p l = some target) (rest : List (Line AsmLabel)) {s : State}
    (hs : Counted P n (s.reg c).toNat s) (hne : s.reg c ≠ 0) :
    ∃ s', Reaches (step base p) ((counted byte c).map .instr ++ .jmp l :: rest, s) (target, s') ∧
      Counted P n (s'.reg c).toNat s' ∧ (s'.reg c).toNat < (s.reg c).toNat := by
  obtain ⟨i, hP, hi⟩ := hs
  have hdown := toNat_sub_one hne
  have hkept := h.counters (s := s) hc
  have hblock : exec_block base (counted byte c) s
      = (exec_block base byte s).result c (s.reg c - 1) := by
    unfold counted exec_block at *
    rw [List.foldl_append, List.foldl_cons, List.foldl_nil, exec, hkept]
    rfl
  have hcount : (exec_block base (counted byte c) s).reg c = s.reg c - 1 := by
    rw [hblock]
    exact State.set_reg_self _ _ _
  have hP' : P (i + 1) (exec_block base (counted byte c) s) := by
    rw [hblock]
    exact h.frame (h.one hP (by omega)) (sameData_result hc _ _)
  refine ⟨_, (reaches_block _ s).trans (reaches_jmp hl), ⟨i + 1, hP', ?_⟩, ?_⟩
  · rw [hcount]
    omega
  · rw [hcount]
    omega

/-- **The bytes at the end.** -/
theorem reaches_bottom (h : Moves base byte op n P)
    (hbottom : goto p .bottom = some (bottom_lines byte)) (hdone : goto p .done = some [])
    {s : State} (hs : Counted P n (s.reg .edx).toNat s) :
    ∃ s', Reaches (step base p) (bottom_lines byte, s) ([], s') ∧ P n s' := by
  have hloop := reaches_loop (f := step base p)
    (I := fun c => c.1 = bottom_lines byte ∧ Counted P n (c.2.reg .edx).toNat c.2)
    (Q := fun c => c.1 = [] ∧ P n c.2) (fun c => (c.2.reg .edx).toNat)
    (a := (bottom_lines byte, s)) ?_ ⟨rfl, hs⟩
  · obtain ⟨⟨lines, s'⟩, hreach, rfl, hP⟩ := hloop
    exact ⟨s', hreach, hP⟩
  · rintro ⟨lines, s⟩ ⟨rfl, i, hP, hi⟩
    dsimp only at hi ⊢
    by_cases hzero : s.reg .edx = 0
    · refine Or.inl ⟨([], { s with zf := true }), ?_, rfl, ?_⟩
      · exact reaches_test_zero hdone (by rw [Operand.value, BitVec.and_self, hzero])
      · rw [hzero] at hi
        obtain rfl : i = n := hi
        exact h.frame hP (sameData_zf s true)
    · obtain ⟨s', hround, hs', hlt⟩ := h.round (Or.inr rfl) hbottom [.label .done]
        (s := { s with zf := false }) ⟨i, h.frame hP (sameData_zf s false), hi⟩ hzero
      refine Or.inr ⟨(bottom_lines byte, s'), .trans ?_ hround, ⟨rfl, hs'⟩, hlt⟩
      exact reaches_test_ne_zero (by rw [Operand.value, BitVec.and_self]; exact hzero)

/-- Four bytes with each double word. -/
theorem word_round (h : Moves base byte op n P) {s : State} (hs : Divided P n s)
    (hne : s.reg .ecx ≠ 0) :
    ∃ s', string_step base op s = some s' ∧ s'.reg .ecx = s.reg .ecx ∧
      Divided P n (s'.set .ecx (s.reg .ecx - 1)) := by
  obtain ⟨⟨j, hP, hj⟩, hseg, hdf⟩ := hs
  have hdown := toNat_sub_one hne
  obtain ⟨s', hstep, hP'⟩ := h.four hP (by omega) hseg hdf
  obtain ⟨hreg, hseg', hdf'⟩ := string_step_kept hstep
  have hecx := hreg .ecx (by decide) (by decide)
  have hedx := hreg .edx (by decide) (by decide)
  refine ⟨s', hstep, hecx, ⟨j + 4, h.frame hP' (sameData_set (Or.inl rfl) s' _), ?_⟩, ?_, ?_⟩
  · rw [State.set_reg_self, State.set_reg_ne _ _ (by decide), hedx]
    omega
  · show s'.seg .es = s'.seg .ds
    rw [hseg']
    exact hseg
  · exact hdf'.trans hdf

theorem divided_align (h : Moves base byte op n P) {s : State}
    (hs : Counted P n (s.reg .ecx).toNat s) : Divided P n (exec_block base align s) := by
  obtain ⟨i, hP, hi⟩ := hs
  obtain ⟨hsame, hseg, hdf, hecx, hedx⟩ := exec_align base s
  have hcount := toNat_divided (s.reg .ecx)
  rw [← hecx, ← hedx] at hcount
  exact ⟨⟨i, h.frame hP hsame, by omega⟩, hseg, hdf⟩

/-- **The double words, and the bytes behind them.** -/
theorem reaches_aligned (h : Moves base byte op n P)
    (hbottom : goto p .bottom = some (bottom_lines byte)) (hdone : goto p .done = some [])
    {s : State} (hs : Counted P n (s.reg .ecx).toNat s) :
    ∃ s', Reaches (step base p) (aligned_lines byte op, s) ([], s') ∧ P n s' := by
  have halign : Reaches (step base p) (aligned_lines byte op, s)
      (.rep op :: .label .bottom :: bottom_lines byte, exec_block base align s) :=
    reaches_block align s
  obtain ⟨s', hwords, ⟨⟨j, hP, hj⟩, -⟩, hzero⟩ :=
    reaches_rep p (.label .bottom :: bottom_lines byte) (fun _ => h.word_round) (h.divided_align hs)
  rw [hzero] at hj
  obtain ⟨s'', hbytes, hP'⟩ := h.reaches_bottom hbottom hdone ⟨j, hP, by simpa using hj⟩
  exact ⟨s'', halign.trans (hwords.trans (.head rfl hbytes)), hP'⟩

/-- **The bytes at the start**: the request ends among them, or the double words follow. -/
theorem reaches_top (h : Moves base byte op n P) (htop : goto p .top = some (top_lines byte op))
    (haligned : goto p .aligned = some (aligned_lines byte op)) (hdone : goto p .done = some [])
    {s : State} (hs : Counted P n (s.reg .ecx).toNat s) :
    ∃ c, Reaches (step base p) (top_lines byte op, s) c ∧
      (c.1 = [] ∧ P n c.2 ∨
        c.1 = aligned_lines byte op ∧ Counted P n (c.2.reg .ecx).toNat c.2) := by
  refine reaches_loop (f := step base p) (a := (top_lines byte op, s))
    (I := fun c => c.1 = top_lines byte op ∧ Counted P n (c.2.reg .ecx).toNat c.2)
    (fun c => (c.2.reg .ecx).toNat) ?_ ⟨rfl, hs⟩
  rintro ⟨lines, s⟩ ⟨rfl, i, hP, hi⟩
  dsimp only at hi ⊢
  by_cases hzero : s.reg .ecx = 0
  · refine Or.inl ⟨([], { s with zf := true }), ?_, Or.inl ⟨rfl, ?_⟩⟩
    · exact reaches_test_zero hdone (by rw [Operand.value, BitVec.and_self, hzero])
    · rw [hzero] at hi
      obtain rfl : i = n := hi
      exact h.frame hP (sameData_zf s true)
  · have hmore : Reaches (step base p) (top_lines byte op, s)
        ((top_lines byte op).drop 2, { s with zf := false }) :=
      reaches_test_ne_zero (by rw [Operand.value, BitVec.and_self]; exact hzero)
    have hP' := h.frame hP (sameData_zf s false)
    by_cases hedi : 0x3 &&& s.reg .edi = 0
    · refine Or.inl ⟨(aligned_lines byte op, { s with zf := true }), hmore.trans ?_,
        Or.inr ⟨rfl, i, h.frame hP (sameData_zf s true), hi⟩⟩
      exact reaches_test_zero haligned hedi
    · obtain ⟨s', hround, hs', hlt⟩ := h.round (Or.inl rfl) htop
        (.label .aligned :: aligned_lines byte op) (s := { s with zf := false }) ⟨i, hP', hi⟩ hzero
      refine Or.inr ⟨(top_lines byte op, s'), hmore.trans (.trans ?_ hround), ⟨rfl, hs'⟩, hlt⟩
      exact reaches_test_ne_zero hedi

theorem goto_word_loop (byte : List Instr) (op : StringOp) :
    goto (word_loop byte op) .top = some (top_lines byte op) ∧
      goto (word_loop byte op) .aligned = some (aligned_lines byte op) ∧
      goto (word_loop byte op) .bottom = some (bottom_lines byte) ∧
      goto (word_loop byte op) .done = some [] := by
  simp only [word_loop, top_lines, aligned_lines, bottom_lines, goto, goto_instrs, reduceCtorEq,
    if_false, if_true, and_self]

/-- **The loop comes to its end, and all bytes are done.** -/
theorem runs (h : Moves base byte op n P) {s : State} (hP : P 0 s) (hn : (s.reg .ecx).toNat = n) :
    ∃ s', Runs base (word_loop byte op) s s' ∧ P n s' := by
  obtain ⟨htop, haligned, hbottom, hdone⟩ := goto_word_loop byte op
  have hstart : step base (word_loop byte op) (word_loop byte op, s)
      = some (top_lines byte op, s) := rfl
  obtain ⟨⟨lines, s'⟩, hreach, hcase⟩ :=
    h.reaches_top htop haligned hdone ⟨0, hP, (Nat.zero_add _).trans hn⟩
  dsimp only at hcase
  rcases hcase with ⟨rfl, hP'⟩ | ⟨rfl, hs'⟩
  · exact ⟨s', runs_iff_reaches.mpr (.head hstart hreach), hP'⟩
  · obtain ⟨s'', hrest, hP''⟩ := h.reaches_aligned hbottom hdone hs'
    exact ⟨s'', runs_iff_reaches.mpr (.head hstart (hreach.trans hrest)), hP''⟩

end Moves

/-! ## `memset` -/

/-- The operand of `memset` has its byte four times. -/
theorem byte_of_memset_operands (dest c n : BitVec 32) (s : State) {k : ℕ} (hk : k < 4) :
    byte_of ((memset_operands dest c n s).reg .eax) k = byte_of c 0 := by
  have heax : (memset_operands dest c n s).reg .eax
      = (c &&& 0xFF) <<< 24 ||| (c &&& 0xFF) <<< 16 ||| (c &&& 0xFF) <<< 8 ||| (c &&& 0xFF) := rfl
  have h₃ : ((c &&& 0xFF) <<< 24).extractLsb' (8 * k) 8 = _ := extract_shifted c (j := 3) hk
  have h₂ : ((c &&& 0xFF) <<< 16).extractLsb' (8 * k) 8 = _ := extract_shifted c (j := 2) hk
  have h₁ : ((c &&& 0xFF) <<< 8).extractLsb' (8 * k) 8 = _ := extract_shifted c (j := 1) hk
  have h₀ := extract_shifted c (j := 0) hk
  rw [Nat.mul_zero, BitVec.shiftLeft_zero] at h₀
  unfold byte_of
  rw [heax, BitVec.extractLsb'_or, BitVec.extractLsb'_or, BitVec.extractLsb'_or, h₃, h₂, h₁, h₀]
  rcases k with _ | _ | _ | _ | k
  · simp
  · simp
  · simp
  · simp
  · omega

/-- `i` bytes of `memset` are done. -/
structure SetState (base : BitVec 16 → BitVec 32) (dest : BitVec 32) (c : UInt8) (s : State) (i : ℕ)
    (s' : State) : Prop where
  edi : s'.reg .edi = dest + BitVec.ofNat 32 i
  eax : ∀ k, k < 4 → byte_of (s'.reg .eax) k = c
  ds : s'.seg .ds = s.seg .ds
  mem : s'.mem = set_bytes (linear base s .ds dest) c i s.mem

theorem linear_add (base : BitVec 16 → BitVec 32) (s : State) (seg : Seg) (off : BitVec 32)
    (i : ℕ) :
    linear base s seg (off + BitVec.ofNat 32 i) = linear base s seg off + BitVec.ofNat 32 i := by
  unfold linear
  rw [BitVec.add_assoc]

theorem linear_congr {base : BitVec 16 → BitVec 32} {s s' : State} {seg seg' : Seg}
    (h : s'.seg seg' = s.seg seg) (off : BitVec 32) :
    linear base s' seg' off = linear base s seg off := by
  unfold linear
  rw [h]

theorem fits_of_le {off : BitVec 32} {i n : ℕ} (h : off.toNat + n ≤ 2 ^ 32) (hi : i + 4 ≤ n) :
    Fits (off + BitVec.ofNat 32 i) := by
  unfold Fits
  rw [BitVec.toNat_add, BitVec.toNat_ofNat]
  omega

theorem memset_moves {base : BitVec 16 → BitVec 32} {dest : BitVec 32} {n : ℕ}
    (h : dest.toNat + n ≤ 2 ^ 32) (c : UInt8) (s : State) :
    Moves base [.movb_store .al .edi, .addl (.imm 1) .edi] .stosl n (SetState base dest c s) where
  frame hP hsame :=
    ⟨(hsame.reg .edi (by decide) (by decide)).trans hP.edi,
      fun k hk =>
        (congrArg (byte_of · k) (hsame.reg .eax (by decide) (by decide))).trans (hP.eax k hk),
      hsame.ds.trans hP.ds, hsame.mem.trans hP.mem⟩
  one := by
    intro i s' hP hi
    have hal : s'.byte .al = c := hP.eax 0 (by omega)
    refine ⟨?_, hP.eax, hP.ds, ?_⟩
    · show s'.reg .edi + 1 = _
      rw [hP.edi, add_ofNat_add]
      rfl
    · show Function.update s'.mem (linear base s' .ds (s'.reg .edi)) (s'.byte .al) = _
      rw [hal, hP.mem, hP.edi, linear_congr hP.ds, linear_add]
      rfl
  counters := by
    rintro s' r (rfl | rfl)
    · rfl
    · rfl
  four := by
    intro i s' hP hi hseg hdf
    have hfits : Fits (s'.reg .edi) := by
      rw [hP.edi]
      exact fits_of_le h hi
    refine ⟨_, if_pos hfits, ?_, hP.eax, hP.ds, ?_⟩
    · show s'.reg .edi + s'.stride = _
      rw [hP.edi, State.stride, hdf, add_ofNat_add]
      rfl
    · show store32 s'.mem (linear base s' .es (s'.reg .edi)) (s'.reg .eax) = _
      rw [set_bytes_word hP.eax, hP.mem, hP.edi, linear_congr (hseg.trans hP.ds), linear_add]

/-! ## `memcpy` -/

/-- `i` bytes of `memcpy` are done. -/
structure CopyState (base : BitVec 16 → BitVec 32) (dest src : BitVec 32) (s : State) (i : ℕ)
    (s' : State) : Prop where
  edi : s'.reg .edi = dest + BitVec.ofNat 32 i
  esi : s'.reg .esi = src + BitVec.ofNat 32 i
  ds : s'.seg .ds = s.seg .ds
  mem : s'.mem = copy_bytes (linear base s .ds dest) (linear base s .ds src) i s.mem

theorem memcpy_moves {base : BitVec 16 → BitVec 32} {dest src : BitVec 32} {n : ℕ}
    (hdest : dest.toNat + n ≤ 2 ^ 32) (hsrc : src.toNat + n ≤ 2 ^ 32) (s : State)
    (h : Apart (linear base s .ds dest) (linear base s .ds src) n) :
    Moves base [.movb_load .esi .al, .movb_store .al .edi, .addl (.imm 1) .edi,
      .addl (.imm 1) .esi] .movsl n (CopyState base dest src s) where
  frame hP hsame :=
    ⟨(hsame.reg .edi (by decide) (by decide)).trans hP.edi,
      (hsame.reg .esi (by decide) (by decide)).trans hP.esi,
      hsame.ds.trans hP.ds, hsame.mem.trans hP.mem⟩
  one := by
    intro i s' hP hi
    have hal := State.byte_set_byte s' .al (s'.mem (linear base s' .ds (s'.reg .esi)))
    refine ⟨?_, ?_, hP.ds, ?_⟩
    · show s'.reg .edi + 1 = _
      rw [hP.edi, add_ofNat_add]
      rfl
    · show s'.reg .esi + 1 = _
      rw [hP.esi, add_ofNat_add]
      rfl
    · refine (congrArg (Function.update s'.mem (linear base s' .ds (s'.reg .edi))) hal).trans ?_
      rw [hP.mem, hP.edi, hP.esi, linear_congr hP.ds, linear_congr hP.ds, linear_add, linear_add]
      rfl
  counters := by
    rintro s' r (rfl | rfl)
    · rfl
    · rfl
  four := by
    intro i s' hP hi hseg hdf
    have hfits : Fits (s'.reg .esi) ∧ Fits (s'.reg .edi) := by
      rw [hP.edi, hP.esi]
      exact ⟨fits_of_le hsrc hi, fits_of_le hdest hi⟩
    refine ⟨_, if_pos hfits, ?_, ?_, hP.ds, ?_⟩
    · show s'.reg .edi + s'.stride = _
      rw [hP.edi, State.stride, hdf, add_ofNat_add]
      rfl
    · show s'.reg .esi + s'.stride = _
      rw [hP.esi, State.stride, hdf, add_ofNat_add]
      rfl
    · show store32 s'.mem (linear base s' .es (s'.reg .edi))
        (load32 s'.mem (linear base s' .ds (s'.reg .esi))) = _
      rw [copy_bytes_word h hi, hP.mem, hP.edi, hP.esi, linear_congr (hseg.trans hP.ds),
        linear_congr hP.ds, linear_add, linear_add]

/-! ## Word at a time and byte by byte -/

/-- The assembly of `memset` comes to its end, and has the effect of the byte loop: the `n`
bytes at `dest` are the low byte of `c`, and the others are as they were. -/
def SetsMemory (base : BitVec 16 → BitVec 32) (dest c n : BitVec 32) (s : State) : Prop :=
  ∃ s', Runs base memset_asm (memset_operands dest c n s) s' ∧
    s'.mem = set_bytes (linear base s .ds dest) (byte_of c 0) n.toNat s.mem ∧
    Stored (linear base s .ds dest) n.toNat (fun _ => byte_of c 0) s.mem s'.mem

/-- The assembly of `memcpy` does, and the `n` bytes at `dest` are those that were at `src`. -/
def CopiesMemory (base : BitVec 16 → BitVec 32) (dest src n : BitVec 32) (s : State) : Prop :=
  ∃ s', Runs base memcpy_asm (memcpy_operands dest src n s) s' ∧
    s'.mem = copy_bytes (linear base s .ds dest) (linear base s .ds src) n.toNat s.mem ∧
    Stored (linear base s .ds dest) n.toNat
      (fun i => s.mem (linear base s .ds src + BitVec.ofNat 32 i)) s.mem s'.mem

/-- The ranges of `n` bytes at two offsets do not overlap. -/
def NoOverlap (a b : BitVec 32) (n : ℕ) : Prop := a.toNat + n ≤ b.toNat ∨ b.toNat + n ≤ a.toNat

instance (a b : BitVec 32) (n : ℕ) : Decidable (NoOverlap a b n) :=
  inferInstanceAs (Decidable (_ ∨ _))

theorem NoOverlap.apart {a b : BitVec 32} {n : ℕ} (h : NoOverlap a b n) (ha : a.toNat + n ≤ 2 ^ 32)
    (hb : b.toNat + n ≤ 2 ^ 32) (base : BitVec 16 → BitVec 32) (s : State) (seg : Seg) :
    Apart (linear base s seg a) (linear base s seg b) n := by
  intro i j hi hj heq
  unfold linear at heq
  rw [BitVec.add_assoc, BitVec.add_assoc, BitVec.add_right_inj] at heq
  have hnat := congrArg BitVec.toNat heq
  rw [BitVec.toNat_add, BitVec.toNat_add, BitVec.toNat_ofNat, BitVec.toNat_ofNat] at hnat
  unfold NoOverlap at h
  omega

theorem memset_runs {base : BitVec 16 → BitVec 32} {dest n : BitVec 32}
    (h : dest.toNat + n.toNat ≤ 2 ^ 32) (c : BitVec 32) (s : State) :
    ∃ s', Runs base memset_asm (memset_operands dest c n s) s' ∧
      SetState base dest (byte_of c 0) s n.toNat s' := by
  have hstart : SetState base dest (byte_of c 0) s 0 (memset_operands dest c n s) :=
    ⟨(BitVec.add_zero dest).symm, fun k hk => byte_of_memset_operands dest c n s hk, rfl, rfl⟩
  rw [memset_asm_eq]
  exact (memset_moves h (byte_of c 0) s).runs hstart rfl

theorem memset_sets {base : BitVec 16 → BitVec 32} {dest n : BitVec 32}
    (h : dest.toNat + n.toNat ≤ 2 ^ 32) (c : BitVec 32) (s : State) :
    SetsMemory base dest c n s := by
  obtain ⟨s', hruns, hdone⟩ := memset_runs h c s
  refine ⟨s', hruns, hdone.mem, ?_⟩
  rw [hdone.mem]
  exact stored_set_bytes _ _ (Nat.le_of_lt n.isLt) _

theorem memcpy_runs {base : BitVec 16 → BitVec 32} {dest src n : BitVec 32}
    (hdest : dest.toNat + n.toNat ≤ 2 ^ 32) (hsrc : src.toNat + n.toNat ≤ 2 ^ 32)
    (h : NoOverlap dest src n.toNat) (s : State) :
    ∃ s', Runs base memcpy_asm (memcpy_operands dest src n s) s' ∧
      CopyState base dest src s n.toNat s' := by
  have hstart : CopyState base dest src s 0 (memcpy_operands dest src n s) :=
    ⟨(BitVec.add_zero dest).symm, (BitVec.add_zero src).symm, rfl, rfl⟩
  rw [memcpy_asm_eq]
  exact (memcpy_moves hdest hsrc s (h.apart hdest hsrc base s .ds)).runs hstart rfl

theorem memcpy_copies {base : BitVec 16 → BitVec 32} {dest src n : BitVec 32}
    (hdest : dest.toNat + n.toNat ≤ 2 ^ 32) (hsrc : src.toNat + n.toNat ≤ 2 ^ 32)
    (h : NoOverlap dest src n.toNat) (s : State) : CopiesMemory base dest src n s := by
  obtain ⟨s', hruns, hdone⟩ := memcpy_runs hdest hsrc h s
  refine ⟨s', hruns, hdone.mem, ?_⟩
  rw [hdone.mem]
  exact stored_copy_bytes (Nat.le_of_lt n.isLt) (h.apart hdest hsrc base s .ds) _

/-- There is no other outcome. -/
theorem memset_outcome {base : BitVec 16 → BitVec 32} {dest c n : BitVec 32} {s s' : State}
    (h : dest.toNat + n.toNat ≤ 2 ^ 32)
    (hruns : Runs base memset_asm (memset_operands dest c n s) s') :
    s'.mem = set_bytes (linear base s .ds dest) (byte_of c 0) n.toNat s.mem := by
  obtain ⟨s₁, hruns₁, hdone⟩ := memset_runs h c s
  rw [hruns.unique hruns₁]
  exact hdone.mem

theorem memcpy_outcome {base : BitVec 16 → BitVec 32} {dest src n : BitVec 32} {s s' : State}
    (hdest : dest.toNat + n.toNat ≤ 2 ^ 32) (hsrc : src.toNat + n.toNat ≤ 2 ^ 32)
    (h : NoOverlap dest src n.toNat)
    (hruns : Runs base memcpy_asm (memcpy_operands dest src n s) s') :
    s'.mem = copy_bytes (linear base s .ds dest) (linear base s .ds src) n.toNat s.mem := by
  obtain ⟨s₁, hruns₁, hdone⟩ := memcpy_runs hdest hsrc h s
  rw [hruns.unique hruns₁]
  exact hdone.mem

/-- **Word at a time `memset` and `memcpy` are the byte loops**, from any state, at any
alignment and for any length. -/
theorem word_at_a_time {base : BitVec 16 → BitVec 32} {dest n : BitVec 32}
    (hdest : dest.toNat + n.toNat ≤ 2 ^ 32) (s : State) :
    (∀ c, SetsMemory base dest c n s) ∧
      ∀ src : BitVec 32, src.toNat + n.toNat ≤ 2 ^ 32 → NoOverlap dest src n.toNat →
        CopiesMemory base dest src n s :=
  ⟨fun c => memset_sets hdest c s, fun _ hsrc h => memcpy_copies hdest hsrc h s⟩

/-- A state in which byte `a` of memory is the low byte of its address, and strings go down. -/
def numbered : State := ⟨fun _ => 0, fun _ => 0, false, true, fun a => byte_of a 0⟩

/-- Three bytes at the start, two double words, and no byte at the end. -/
theorem word_at_a_time_demo :
    SetsMemory (fun _ => 0) 0x2001 0x120 11 numbered ∧
      CopiesMemory (fun _ => 0) 0x2001 0x1002 11 numbered :=
  ⟨(word_at_a_time (by decide) numbered).1 0x120,
    (word_at_a_time (by decide) numbered).2 0x1002 (by decide) (by decide)⟩

example : ((run (fun _ => 0) memcpy_asm 100
    (memcpy_asm, memcpy_operands 0x2001 0x1002 8 numbered)).map
      fun s' => (List.range 10).map fun i => s'.mem (0x2000 + BitVec.ofNat 32 i))
      = some [0, 2, 3, 4, 5, 6, 7, 8, 9, 9] := by decide +kernel

end LinuxLikeOS
