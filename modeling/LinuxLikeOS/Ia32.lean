/-
A fragment of the IA-32 instruction set, in the words of the assembler: what a block that is
written between labels does to the registers, the flags and the memory.

A program is the list of its lines. The lines that are still to come take the place of the
program counter, so a jump continues behind the line with its label. Memory is addressed by
linear address, the base of a segment and an offset in it, and the bases come from a
descriptor table that is a parameter here. A segment reaches to offset `2 ^ 32 - 1`, so a
double word that begins less than four bytes below it cannot be loaded or stored: the
instruction faults, and there is no next state. Of the flags only the two that are read by
the fragment are kept.
-/
import Mathlib.Computability.StateTransition
import Mathlib.Data.Nat.Notation
import Mathlib.Logic.Function.Basic

set_option autoImplicit false

namespace Ia32

/-! ## The state -/

inductive Reg
  | eax | ecx | edx | ebx | esi | edi
  deriving DecidableEq

/-- The low bytes of the registers. -/
inductive Reg8
  | al | cl | dl | bl

def Reg8.whole : Reg8 → Reg
  | .al => .eax
  | .cl => .ecx
  | .dl => .edx
  | .bl => .ebx

/-- The low halves of the registers. -/
inductive Reg16
  | ax | cx | dx | bx | si | di

def Reg16.whole : Reg16 → Reg
  | .ax => .eax
  | .cx => .ecx
  | .dx => .edx
  | .bx => .ebx
  | .si => .esi
  | .di => .edi

inductive Seg
  | ds | es
  deriving DecidableEq

abbrev Memory : Type := BitVec 32 → UInt8

structure State where
  reg : Reg → BitVec 32
  seg : Seg → BitVec 16
  zf : Bool
  df : Bool
  mem : Memory

def State.set (s : State) (r : Reg) (v : BitVec 32) : State :=
  { s with reg := Function.update s.reg r v }

/-! ## Words in memory -/

/-- Byte `i` of a double word, from the low end. -/
def byte_of (w : BitVec 32) (i : ℕ) : UInt8 := UInt8.ofBitVec (w.extractLsb' (8 * i) 8)

def load32 (m : Memory) (a : BitVec 32) : BitVec 32 :=
  (m (a + 3)).toBitVec ++ (m (a + 2)).toBitVec ++ (m (a + 1)).toBitVec ++ (m a).toBitVec

def store32 (m : Memory) (a w : BitVec 32) : Memory :=
  Function.update (Function.update (Function.update (Function.update m a (byte_of w 0))
    (a + 1) (byte_of w 1)) (a + 2) (byte_of w 2)) (a + 3) (byte_of w 3)

theorem extract_append {n : ℕ} (x : BitVec n) (y : BitVec 8) (i : ℕ) :
    (x ++ y).extractLsb' (8 * (i + 1)) 8 = x.extractLsb' (8 * i) 8 := by
  rw [BitVec.extractLsb'_append_eq_of_le (by omega)]
  congr 1

/-- **Little end first**: the bytes of a double word that is loaded are those in memory. -/
theorem byte_of_load32 (m : Memory) (a : BitVec 32) {i : ℕ} (hi : i < 4) :
    byte_of (load32 m a) i = m (a + BitVec.ofNat 32 i) := by
  unfold byte_of load32
  rcases i with _ | _ | _ | _ | i
  · rw [Nat.mul_zero, BitVec.extractLsb'_append_eq_right, BitVec.add_zero]
  · rw [extract_append, Nat.mul_zero, BitVec.extractLsb'_append_eq_right]
    rfl
  · rw [extract_append, extract_append, Nat.mul_zero, BitVec.extractLsb'_append_eq_right]
    rfl
  · rw [extract_append, extract_append, extract_append, Nat.mul_zero, BitVec.extractLsb'_eq_self]
    rfl
  · omega

theorem getLsbD_low (c : BitVec 32) (i : ℕ) :
    (c &&& 0xFF).getLsbD i = (decide (i < 8) && c.getLsbD i) := by
  have hmask : (0xFF : BitVec 32).getLsbD i = (decide (i < 32) && decide (i < 8)) := by
    show (BitVec.ofNat 32 (2 ^ 8 - 1)).getLsbD i = _
    rw [BitVec.getLsbD_ofNat, Nat.testBit_two_pow_sub_one]
  rw [BitVec.getLsbD_and, hmask]
  by_cases h : i < 32
  · simp [h, Bool.and_comm]
  · simp [h, BitVec.getLsbD_of_ge c i (by omega)]

/-- The low byte of `c`, shifted up to place `j`, is the byte there and no other. -/
theorem extract_shifted (c : BitVec 32) {j k : ℕ} (hk : k < 4) :
    ((c &&& 0xFF) <<< (8 * j)).extractLsb' (8 * k) 8 = if k = j then c.extractLsb' 0 8 else 0 := by
  apply BitVec.eq_of_getLsbD_eq
  intro i hi
  rw [BitVec.getLsbD_extractLsb', BitVec.getLsbD_shiftLeft, getLsbD_low]
  have hin : 8 * k + i < 32 := by omega
  by_cases hplace : k = j
  · subst hplace
    have hnot : ¬ 8 * k + i < 8 * k := by omega
    rw [if_pos rfl, BitVec.getLsbD_extractLsb', Nat.add_sub_cancel_left, Nat.zero_add]
    simp [hi, hin, hnot]
  · rw [if_neg hplace]
    rcases Nat.lt_or_gt_of_ne hplace with hlow | hhigh
    · have hbelow : 8 * k + i < 8 * j := by omega
      simp [hbelow]
    · have habove : ¬ 8 * k + i - 8 * j < 8 := by omega
      simp [habove]

/-! ## Parts of registers -/

def State.byte (s : State) (r : Reg8) : UInt8 := byte_of (s.reg r.whole) 0

def State.set_byte (s : State) (r : Reg8) (v : UInt8) : State :=
  s.set r.whole ((s.reg r.whole).extractLsb' 8 24 ++ v.toBitVec)

def State.half (s : State) (r : Reg16) : BitVec 16 := (s.reg r.whole).extractLsb' 0 16

def State.set_half (s : State) (r : Reg16) (v : BitVec 16) : State :=
  s.set r.whole ((s.reg r.whole).extractLsb' 16 16 ++ v)

@[simp] theorem State.set_reg_self (s : State) (r : Reg) (v : BitVec 32) : (s.set r v).reg r = v :=
  Function.update_self _ _ _

@[simp] theorem State.set_reg_ne (s : State) {r r' : Reg} (v : BitVec 32) (h : r' ≠ r) :
    (s.set r v).reg r' = s.reg r' := Function.update_of_ne h _ _

@[simp] theorem State.byte_set_byte (s : State) (r : Reg8) (v : UInt8) :
    (s.set_byte r v).byte r = v := by
  unfold State.byte State.set_byte byte_of
  rw [State.set_reg_self, Nat.mul_zero, BitVec.extractLsb'_append_eq_right]

@[simp] theorem State.half_set_half (s : State) (r : Reg16) (v : BitVec 16) :
    (s.set_half r v).half r = v := by
  unfold State.half State.set_half
  rw [State.set_reg_self, BitVec.extractLsb'_append_eq_right]

/-! ## Instructions -/

/-- A number in the instruction, or a register. -/
inductive Operand
  | imm (v : BitVec 32)
  | reg (r : Reg)

def Operand.value (s : State) : Operand → BitVec 32
  | .imm v => v
  | .reg r => s.reg r

/-- The instructions that go on to the next line. The source comes before the destination. -/
inductive Instr
  | testl (src : Operand) (dst : Reg)
  | movl (src : Operand) (dst : Reg)
  | addl (src : Operand) (dst : Reg)
  | subl (src : Operand) (dst : Reg)
  | andl (src : Operand) (dst : Reg)
  | shrl (count : ℕ) (dst : Reg)
  | movb_load (src : Reg) (dst : Reg8)
  | movb_store (src : Reg8) (dst : Reg)
  | movw_of_seg (src : Seg) (dst : Reg16)
  | movw_to_seg (src : Reg16) (dst : Seg)
  | cld

/-- The result of an operation in a register, with the zero flag. -/
def State.result (s : State) (dst : Reg) (v : BitVec 32) : State :=
  { s.set dst v with zf := v == 0 }

section

variable (base : BitVec 16 → BitVec 32)

/-- The linear address of an offset in a segment. -/
def linear (s : State) (seg : Seg) (off : BitVec 32) : BitVec 32 := base (s.seg seg) + off

def exec : Instr → State → State
  | .testl src dst, s => { s with zf := (src.value s &&& s.reg dst) == 0 }
  | .movl src dst, s => s.set dst (src.value s)
  | .addl src dst, s => s.result dst (s.reg dst + src.value s)
  | .subl src dst, s => s.result dst (s.reg dst - src.value s)
  | .andl src dst, s => s.result dst (s.reg dst &&& src.value s)
  | .shrl count dst, s => s.result dst (s.reg dst >>> count)
  | .movb_load src dst, s => s.set_byte dst (s.mem (linear base s .ds (s.reg src)))
  | .movb_store src dst, s =>
      { s with mem := Function.update s.mem (linear base s .ds (s.reg dst)) (s.byte src) }
  | .movw_of_seg src dst, s => s.set_half dst (s.seg src)
  | .movw_to_seg src dst, s => { s with seg := Function.update s.seg dst (s.half src) }
  | .cld, s => { s with df := false }

def exec_block (is : List Instr) (s : State) : State := is.foldl (fun s i => exec base i s) s

/-- The string instructions on double words. -/
inductive StringOp
  | stosl | movsl

/-- A double word at this offset ends inside the segment. -/
def Fits (off : BitVec 32) : Prop := off.toNat + 4 ≤ 2 ^ 32

instance (off : BitVec 32) : Decidable (Fits off) := inferInstanceAs (Decidable (_ ≤ _))

/-- How far a string instruction moves its pointers. -/
def State.stride (s : State) : BitVec 32 := if s.df then -4 else 4

def string_step : StringOp → State → Option State
  | .stosl, s =>
      if Fits (s.reg .edi) then
        some { s.set .edi (s.reg .edi + s.stride) with
          mem := store32 s.mem (linear base s .es (s.reg .edi)) (s.reg .eax) }
      else none
  | .movsl, s =>
      if Fits (s.reg .esi) ∧ Fits (s.reg .edi) then
        some { (s.set .esi (s.reg .esi + s.stride)).set .edi (s.reg .edi + s.stride) with
          mem := store32 s.mem (linear base s .es (s.reg .edi))
            (load32 s.mem (linear base s .ds (s.reg .esi))) }
      else none

/-- A string instruction moves its pointers and writes to memory. -/
theorem string_step_kept {base : BitVec 16 → BitVec 32} {op : StringOp} {s s' : State}
    (h : string_step base op s = some s') :
    (∀ r, r ≠ .esi → r ≠ .edi → s'.reg r = s.reg r) ∧ s'.seg = s.seg ∧ s'.df = s.df := by
  cases op with
  | stosl =>
      rw [string_step] at h
      split at h
      · obtain rfl := Option.some.inj h
        exact ⟨fun r _ hedi => State.set_reg_ne _ _ hedi, rfl, rfl⟩
      · cases h
  | movsl =>
      rw [string_step] at h
      split at h
      · obtain rfl := Option.some.inj h
        refine ⟨fun r hesi hedi => ?_, rfl, rfl⟩
        dsimp only
        rw [State.set_reg_ne _ _ hedi, State.set_reg_ne _ _ hesi]
      · cases h

/-! ## Programs -/

/-- A line of a program whose labels are in `L`. -/
inductive Line (L : Type*)
  | label (l : L)
  | instr (i : Instr)
  | jz (l : L)
  | jmp (l : L)
  | rep (op : StringOp)

variable {L : Type*} [DecidableEq L]

/-- The lines behind a label. -/
def goto : List (Line L) → L → Option (List (Line L))
  | [], _ => none
  | .label l' :: rest, l => if l' = l then some rest else goto rest l
  | _ :: rest, l => goto rest l

/-- The lines still to come, and the state. -/
abbrev Config (L : Type*) : Type _ := List (Line L) × State

/-- One step of a program: a line, or one round of a repeated string instruction. There is
none at the end, after a fault and to a label that is missing. -/
def step (p : List (Line L)) : Config L → Option (Config L)
  | ([], _) => none
  | (.label _ :: rest, s) => some (rest, s)
  | (.instr i :: rest, s) => some (rest, exec base i s)
  | (.jz l :: rest, s) => if s.zf then (goto p l).map fun rest => (rest, s) else some (rest, s)
  | (.jmp l :: _, s) => (goto p l).map fun rest => (rest, s)
  | (.rep op :: rest, s) =>
      if s.reg .ecx = 0 then some (rest, s)
      else (string_step base op s).map fun s' => (.rep op :: rest, s'.set .ecx (s'.reg .ecx - 1))

/-- The state at the end of a program, when at most `n` steps reach it. -/
def run (p : List (Line L)) : ℕ → Config L → Option State
  | _, ([], s) => some s
  | 0, _ => none
  | n + 1, c => (step base p c).bind (run p n)

/-- The program comes to its end, and this is the state there. -/
def Runs (p : List (Line L)) (s s' : State) : Prop := ∃ n, run base p n (p, s) = some s'

/-! ## Rules -/

open StateTransition

variable {base : BitVec 16 → BitVec 32} {p rest : List (Line L)} {s s' : State}

/-- A counter that is not 0 goes down by one. -/
theorem toNat_sub_one {x : BitVec 32} (h : x ≠ 0) : (x - 1).toNat + 1 = x.toNat := by
  have hpos : x.toNat ≠ 0 := fun hzero => h (BitVec.eq_of_toNat_eq hzero)
  have hone : (1 : BitVec 32).toNat = 1 := rfl
  rw [BitVec.toNat_sub_of_le (BitVec.le_def.mpr (by omega)), hone]
  omega

/-- Instructions have no label. -/
theorem goto_instrs (is : List Instr) (rest : List (Line L)) (l : L) :
    goto (is.map .instr ++ rest) l = goto rest l := by
  induction is with
  | nil => rfl
  | cons i is ih => exact ih

/-- **A block of instructions** goes on to the line behind it. -/
theorem reaches_block (is : List Instr) (s : State) :
    Reaches (step base p) (is.map .instr ++ rest, s) (rest, exec_block base is s) := by
  induction is generalizing s with
  | nil => exact .refl
  | cons i is ih => exact .head rfl (ih (exec base i s))

/-- A test that finds 0, and the jump behind it. -/
theorem reaches_test_zero {src : Operand} {dst : Reg} {l : L} {target : List (Line L)}
    (hl : goto p l = some target) (hzero : src.value s &&& s.reg dst = 0) :
    Reaches (step base p) (.instr (.testl src dst) :: .jz l :: rest, s)
      (target, { s with zf := true }) := by
  have htest : exec base (.testl src dst) s = { s with zf := true } := by
    rw [exec, hzero]
    rfl
  have hjump : step base p (.jz l :: rest, { s with zf := true })
      = some (target, { s with zf := true }) := by
    rw [step, hl]
    rfl
  exact .head (congrArg (fun s' => some (.jz l :: rest, s')) htest) (.single hjump)

/-- A test that does not, and no jump. -/
theorem reaches_test_ne_zero {src : Operand} {dst : Reg} {l : L}
    (hne : src.value s &&& s.reg dst ≠ 0) :
    Reaches (step base p) (.instr (.testl src dst) :: .jz l :: rest, s)
      (rest, { s with zf := false }) := by
  have htest : exec base (.testl src dst) s = { s with zf := false } := by
    rw [exec, beq_eq_false_iff_ne.mpr hne]
  exact .head (congrArg (fun s' => some (.jz l :: rest, s')) htest) (.single rfl)

theorem reaches_jmp {l : L} {target : List (Line L)} (hl : goto p l = some target) :
    Reaches (step base p) (.jmp l :: rest, s) (target, s) := by
  refine .single (Option.mem_def.mpr ?_)
  rw [step, hl]
  rfl

/-- **A loop** whose rounds go down ends where a round leaves it. -/
theorem reaches_loop {σ : Type*} {f : σ → Option σ} {I Q : σ → Prop} (size : σ → ℕ)
    (round : ∀ a, I a → (∃ b, Reaches f a b ∧ Q b) ∨ ∃ b, Reaches f a b ∧ I b ∧ size b < size a)
    {a : σ} (h : I a) : ∃ b, Reaches f a b ∧ Q b := by
  induction hn : size a using Nat.strong_induction_on generalizing a with
  | h n ih =>
      rcases round a h with hleft | ⟨b, hab, hb, hlt⟩
      · exact hleft
      · obtain ⟨c, hbc, hc⟩ := ih (size b) (hn ▸ hlt) hb rfl
        exact ⟨c, hab.trans hbc, hc⟩

/-- **A repeated string instruction** goes on when the count is 0, and what its rounds keep
holds then. -/
theorem reaches_rep (p rest : List (Line L)) {op : StringOp} {I : State → Prop}
    (round : ∀ s, I s → s.reg .ecx ≠ 0 → ∃ s', string_step base op s = some s' ∧
      s'.reg .ecx = s.reg .ecx ∧ I (s'.set .ecx (s.reg .ecx - 1))) (h : I s) :
    ∃ s', Reaches (step base p) (.rep op :: rest, s) (rest, s') ∧ I s' ∧ s'.reg .ecx = 0 := by
  have hloop := reaches_loop (f := step base p)
    (I := fun c => c.1 = .rep op :: rest ∧ I c.2)
    (Q := fun c => c.1 = rest ∧ I c.2 ∧ c.2.reg .ecx = 0) (fun c => (c.2.reg .ecx).toNat)
    (a := (.rep op :: rest, s)) ?_ ⟨rfl, h⟩
  · obtain ⟨⟨rest', s'⟩, hreach, rfl, hI, hzero⟩ := hloop
    exact ⟨s', hreach, hI, hzero⟩
  · rintro ⟨lines, s⟩ ⟨rfl, hI⟩
    by_cases hzero : s.reg .ecx = 0
    · exact Or.inl ⟨(rest, s), .single (if_pos hzero), rfl, hI, hzero⟩
    · obtain ⟨s', hstep, hcount, hI'⟩ := round s hI hzero
      refine Or.inr ⟨(.rep op :: rest, s'.set .ecx (s.reg .ecx - 1)), .single ?_, ⟨rfl, hI'⟩, ?_⟩
      · refine Option.mem_def.mpr ((if_neg hzero).trans ?_)
        rw [hstep, Option.map_some, hcount]
      · dsimp only
        rw [State.set_reg_self]
        have hdown := toNat_sub_one hzero
        omega

/-! ## Runs -/

theorem run_succ (n : ℕ) {c : Config L} (hc : c.1 ≠ []) :
    run base p (n + 1) c = (step base p c).bind (run base p n) := by
  obtain ⟨_ | ⟨line, lines⟩, s⟩ := c
  · exact absurd rfl hc
  · rfl

theorem reaches_of_run {n : ℕ} {c : Config L} (h : run base p n c = some s') :
    Reaches (step base p) c ([], s') := by
  induction n generalizing c with
  | zero =>
      obtain ⟨_ | ⟨line, lines⟩, s⟩ := c
      · cases h
        exact .refl
      · cases h
  | succ n ih =>
      by_cases hc : c.1 = []
      · obtain ⟨lines, s⟩ := c
        cases hc
        cases h
        exact .refl
      · rw [run_succ n hc, Option.bind_eq_some_iff] at h
        obtain ⟨c', hstep, hrun⟩ := h
        exact .head hstep (ih hrun)

theorem run_of_reaches {c : Config L} (h : Reaches (step base p) c ([], s')) :
    ∃ n, run base p n c = some s' := by
  induction h using Relation.ReflTransGen.head_induction_on with
  | refl => exact ⟨0, rfl⟩
  | @head c c' hstep _ ih =>
      obtain ⟨n, hn⟩ := ih
      have hc : c.1 ≠ [] := by
        obtain ⟨lines, s⟩ := c
        rintro rfl
        cases hstep
      refine ⟨n + 1, ?_⟩
      rw [run_succ n hc, Option.mem_def.mp hstep]
      exact hn

theorem runs_iff_reaches : Runs base p s s' ↔ Reaches (step base p) (p, s) ([], s') :=
  ⟨fun ⟨_, h⟩ => reaches_of_run h, run_of_reaches⟩

/-- **A program has one result.** -/
theorem Runs.unique {s₁ s₂ : State} (h₁ : Runs base p s s₁) (h₂ : Runs base p s s₂) : s₁ = s₂ := by
  have h₁ := mem_eval.mpr ⟨runs_iff_reaches.mp h₁, rfl⟩
  have h₂ := mem_eval.mpr ⟨runs_iff_reaches.mp h₂, rfl⟩
  exact (Prod.mk.inj (Part.mem_unique h₁ h₂)).2

end

end Ia32
