/-
The part of IA-32 that calls, interrupts and their returns are made of: the stack and the flags.

A block is a list of lines that is run from the top. Its jumps go down to a label, so the lines
that are left until then are skipped. What is not a line of the block is a parameter: the C
functions that it calls, the kernel behind an `int`, and the addresses of its own lines, which
`call` and `int` put on the stack. The segments are flat, so the address of a word is its offset.

A stack is described by the words on it, from the top down (`OnStack`). A push and a pop are then a
cons and an uncons, and whatever leaves the words alone leaves the description alone.
-/
import LinuxLikeOS.Ia32

set_option autoImplicit false

namespace CallStack

open Ia32 (Memory load32 store32 byte_of)

/-! ## Words in memory -/

theorem add_ofNat_zero (a : BitVec 32) : a + BitVec.ofNat 32 0 = a := BitVec.add_zero a

theorem load32_congr {m m' : Memory} {a : BitVec 32}
    (h : ∀ k, k < 4 → m' (a + BitVec.ofNat 32 k) = m (a + BitVec.ofNat 32 k)) :
    load32 m' a = load32 m a := by
  have h0 : m' a = m a := by
    have hzero := h 0 (by decide)
    rwa [add_ofNat_zero] at hzero
  have h1 : m' (a + 1) = m (a + 1) := h 1 (by decide)
  have h2 : m' (a + 2) = m (a + 2) := h 2 (by decide)
  have h3 : m' (a + 3) = m (a + 3) := h 3 (by decide)
  unfold load32
  rw [h0, h1, h2, h3]

/-- The four bytes of a double word. -/
theorem bytes_append (w : BitVec 32) : (byte_of w 3).toBitVec ++ (byte_of w 2).toBitVec ++
    (byte_of w 1).toBitVec ++ (byte_of w 0).toBitVec = w := by
  apply BitVec.eq_of_getLsbD_eq
  intro i hi
  simp only [BitVec.getLsbD_append, byte_of, BitVec.getLsbD_extractLsb']
  by_cases h0 : i < 8
  · simp [h0]
  · by_cases h1 : i - 8 < 8
    · have hidx : 8 + (i - 8) = i := by omega
      simp [h0, h1, hidx]
    · by_cases h2 : i - 8 - 8 < 8
      · have hidx : 16 + (i - 8 - 8) = i := by omega
        simp [h0, h1, h2, hidx]
      · have h3 : i - 8 - 8 - 8 < 8 := by omega
        have hidx : 24 + (i - 8 - 8 - 8) = i := by omega
        simp [h0, h1, h2, h3, hidx]

/-- Two addresses that are less than the address space apart are different. -/
theorem add_ne {a : BitVec 32} {i j : ℕ} (hij : i < j) (hj : j < i + 2 ^ 32) :
    a + BitVec.ofNat 32 i ≠ a + BitVec.ofNat 32 j := by
  intro heq
  have hof := (BitVec.add_right_inj a).mp heq
  have hnat := congrArg BitVec.toNat hof
  rw [BitVec.toNat_ofNat, BitVec.toNat_ofNat] at hnat
  omega

theorem load32_store32 (m : Memory) (a w : BitVec 32) : load32 (store32 m a w) a = w := by
  have hne : ∀ j, 0 < j → j < 4 → a ≠ a + BitVec.ofNat 32 j := by
    intro j hj hj'
    have h := add_ne (a := a) hj (Nat.lt_of_lt_of_le hj' (by decide))
    rwa [add_ofNat_zero] at h
  have h1 : a ≠ a + 1 := hne 1 (by decide) (by decide)
  have h2 : a ≠ a + 2 := hne 2 (by decide) (by decide)
  have h3 : a ≠ a + 3 := hne 3 (by decide) (by decide)
  have h12 : a + 1 ≠ a + 2 := add_ne (a := a) (i := 1) (j := 2) (by decide) (by decide)
  have h13 : a + 1 ≠ a + 3 := add_ne (a := a) (i := 1) (j := 3) (by decide) (by decide)
  have h23 : a + 2 ≠ a + 3 := add_ne (a := a) (i := 2) (j := 3) (by decide) (by decide)
  unfold load32 store32
  rw [Function.update_self, Function.update_of_ne h23, Function.update_self,
    Function.update_of_ne h13, Function.update_of_ne h12, Function.update_self,
    Function.update_of_ne h3, Function.update_of_ne h2, Function.update_of_ne h1,
    Function.update_self, bytes_append]

/-- A store changes four bytes. -/
theorem store32_of_ne {m : Memory} {a w b : BitVec 32}
    (h : ∀ k, k < 4 → b ≠ a + BitVec.ofNat 32 k) : store32 m a w b = m b := by
  have h0 : b ≠ a := by
    have hzero := h 0 (by decide)
    rwa [add_ofNat_zero] at hzero
  have h1 : b ≠ a + 1 := h 1 (by decide)
  have h2 : b ≠ a + 2 := h 2 (by decide)
  have h3 : b ≠ a + 3 := h 3 (by decide)
  unfold store32
  rw [Function.update_of_ne h3, Function.update_of_ne h2, Function.update_of_ne h1,
    Function.update_of_ne h0]

/-- The words from an address on. -/
def Words (m : Memory) : BitVec 32 → List (BitVec 32) → Prop
  | _, [] => True
  | a, w :: ws => load32 m a = w ∧ Words m (a + 4) ws

namespace Words

variable {m m' : Memory} {a w : BitVec 32} {ws vs : List (BitVec 32)}

/-- Only their own bytes matter. -/
theorem congr (h : Words m a ws) (hm : ∀ i, i < 4 * ws.length →
    m' (a + BitVec.ofNat 32 i) = m (a + BitVec.ofNat 32 i)) : Words m' a ws := by
  induction ws generalizing a with
  | nil => trivial
  | cons w ws ih =>
      rw [List.length_cons] at hm
      refine ⟨(load32_congr fun k hk => hm k (by omega)).trans h.1, ih h.2 fun i hi => ?_⟩
      have hidx : a + 4 + BitVec.ofNat 32 i = a + BitVec.ofNat 32 (4 + i) := by
        rw [BitVec.add_assoc, BitVec.ofNat_add]
        rfl
      rw [hidx]
      exact hm (4 + i) (by omega)

/-- A word stored right before them. -/
theorem store (h : Words m a ws) (w : BitVec 32) (hlen : 4 * ws.length + 4 ≤ 2 ^ 32) :
    Words (store32 m (a - 4) w) (a - 4) (w :: ws) := by
  refine ⟨load32_store32 m (a - 4) w, ?_⟩
  rw [BitVec.sub_add_cancel]
  refine h.congr fun i hi => store32_of_ne fun k hk => ?_
  have hbase : ∀ n : ℕ, a + BitVec.ofNat 32 n = a - 4 + BitVec.ofNat 32 (4 + n) := by
    intro n
    rw [BitVec.ofNat_add, ← BitVec.add_assoc]
    exact congrArg (· + BitVec.ofNat 32 n) (BitVec.sub_add_cancel a 4).symm
  rw [hbase]
  exact (add_ne (by omega) (by omega)).symm

theorem take (vs : List (BitVec 32)) (h : Words m a (vs ++ ws)) : Words m a vs := by
  induction vs generalizing a with
  | nil => trivial
  | cons v vs ih => exact ⟨h.1, ih h.2⟩

theorem drop (h : Words m a (vs ++ ws)) :
    Words m (a + BitVec.ofNat 32 (4 * vs.length)) ws := by
  induction vs generalizing a with
  | nil =>
      rw [List.length_nil, Nat.mul_zero, add_ofNat_zero]
      exact h
  | cons v vs ih =>
      have hrest := ih h.2
      have hidx : a + 4 + BitVec.ofNat 32 (4 * vs.length)
          = a + BitVec.ofNat 32 (4 * (v :: vs).length) := by
        rw [BitVec.add_assoc, List.length_cons, Nat.mul_succ, Nat.add_comm, BitVec.ofNat_add]
        rfl
      rwa [hidx] at hrest

end Words

/-! ## The processor -/

/-- The general registers, in the order `pushal` stores them. -/
inductive Reg
  | eax | ecx | edx | ebx | esp | ebp | esi | edi
  deriving DecidableEq

structure Cpu where
  reg : Reg → BitVec 32
  eflags : BitVec 32
  eip : BitVec 32
  cs : BitVec 16
  ss : BitVec 16
  mem : Memory

namespace Cpu

def set (s : Cpu) (r : Reg) (v : BitVec 32) : Cpu := { s with reg := Function.update s.reg r v }

def push (s : Cpu) (v : BitVec 32) : Cpu :=
  { s.set .esp (s.reg .esp - 4) with mem := store32 s.mem (s.reg .esp - 4) v }

/-- The word on top of the stack. -/
def top (s : Cpu) : BitVec 32 := load32 s.mem (s.reg .esp)

def pop (s : Cpu) : Cpu := s.set .esp (s.reg .esp + 4)

/-- The privilege level, which is that of the code segment. -/
def cpl (s : Cpu) : BitVec 2 := s.cs.setWidth 2

end Cpu

/-! ## Flags -/

def CF : ℕ := 0
def PF : ℕ := 2
def AF : ℕ := 4
def ZF : ℕ := 6
def SF : ℕ := 7
def TF : ℕ := 8
def IF : ℕ := 9
def OF : ℕ := 11
def NT : ℕ := 14
def RF : ℕ := 16
def VM : ℕ := 17

def put_flag (i : ℕ) (b : Bool) (w : BitVec 32) : BitVec 32 :=
  if b then w ||| BitVec.twoPow 32 i else w &&& ~~~ BitVec.twoPow 32 i

theorem getLsbD_put_flag {i : ℕ} (hi : i < 32) (b : Bool) (w : BitVec 32) (j : ℕ) :
    (put_flag i b w).getLsbD j = if j = i then b else w.getLsbD j := by
  unfold put_flag
  by_cases hj : j = i
  · subst hj
    cases b <;> simp [hi]
  · by_cases hj' : j < 32
    · cases b
      · simp [hj, hj']
      · simp [hj, Ne.symm hj]
    · cases b <;> simp [hj, Ne.symm hj, BitVec.getLsbD_of_ge w j (by omega)]

/-- Even parity of the low byte. -/
def parity (w : BitVec 32) : Bool := (List.range 8).foldl (fun p i => p != w.getLsbD i) true

/-- The flags that arithmetic leaves, with a carry, an overflow and an auxiliary carry of its own. -/
def arith_flags (carry overflow aux : Bool) (result flags : BitVec 32) : BitVec 32 :=
  put_flag CF carry <| put_flag PF (parity result) <| put_flag AF aux <|
    put_flag ZF (result == 0) <| put_flag SF result.msb <| put_flag OF overflow flags

/-- The carry out of the low half of the low byte. -/
def aux_carry (a b result : BitVec 32) : Bool := (a ^^^ b ^^^ result).getLsbD 4

/-- What `cmpl b, a` leaves. -/
def cmp_flags (a b flags : BitVec 32) : BitVec 32 :=
  arith_flags (decide (a < b)) (BitVec.ssubOverflow a b) (aux_carry a b (a - b)) (a - b) flags

def add_flags (a b flags : BitVec 32) : BitVec 32 :=
  arith_flags (BitVec.uaddOverflow a b) (BitVec.saddOverflow a b) (aux_carry a b (a + b)) (a + b)
    flags

/-- The condition of `jle`. -/
def less_or_equal (flags : BitVec 32) : Bool :=
  flags.getLsbD ZF || (flags.getLsbD SF != flags.getLsbD OF)

/-- **After a comparison `jle` is the signed order.** -/
theorem less_or_equal_cmp (a b flags : BitVec 32) :
    less_or_equal (cmp_flags a b flags) = decide (a.toInt ≤ b.toInt) := by
  have hflag : ∀ {i} (hi : i < 32) b w j, (put_flag i b w).getLsbD j = if j = i then b
      else w.getLsbD j := fun hi => getLsbD_put_flag hi
  have hzf : (cmp_flags a b flags).getLsbD ZF = (a - b == 0) := by
    unfold cmp_flags arith_flags
    rw [hflag (by decide), if_neg (by decide), hflag (by decide), if_neg (by decide),
      hflag (by decide), if_neg (by decide), hflag (by decide), if_pos rfl]
  have hsf : (cmp_flags a b flags).getLsbD SF = (a - b).msb := by
    unfold cmp_flags arith_flags
    rw [hflag (by decide), if_neg (by decide), hflag (by decide), if_neg (by decide),
      hflag (by decide), if_neg (by decide), hflag (by decide), if_neg (by decide),
      hflag (by decide), if_pos rfl]
  have hof : (cmp_flags a b flags).getLsbD OF = BitVec.ssubOverflow a b := by
    unfold cmp_flags arith_flags
    rw [hflag (by decide), if_neg (by decide), hflag (by decide), if_neg (by decide),
      hflag (by decide), if_neg (by decide), hflag (by decide), if_neg (by decide),
      hflag (by decide), if_neg (by decide), hflag (by decide), if_pos rfl]
  have hzero : (a - b == 0) = decide (a.toInt = b.toInt) := by
    rw [Bool.eq_iff_iff, beq_iff_eq, decide_eq_true_iff, BitVec.toInt_inj,
      BitVec.sub_eq_iff_eq_add]
    exact (congrArg (a = ·) (BitVec.zero_add b)).to_iff
  have hlo := BitVec.le_toInt a
  have hhi := BitVec.toInt_lt (x := a)
  have hlo' := BitVec.le_toInt b
  have hhi' := BitVec.toInt_lt (x := b)
  unfold less_or_equal
  rw [hzf, hsf, hof, hzero, BitVec.msb_eq_toInt, BitVec.toInt_sub]
  have hhalf : (2 : Int) ^ (32 - 1) = 2147483648 := rfl
  have hword : ((2 ^ 32 : ℕ) : Int) = 4294967296 := rfl
  rw [hhalf] at hlo hhi hlo' hhi'
  unfold BitVec.ssubOverflow
  rw [Int.bmod_def, hhalf, hword]
  generalize a.toInt = x at hlo hhi ⊢
  generalize b.toInt = y at hlo' hhi' ⊢
  have hprop : ∀ (p q r t : Prop) [Decidable p] [Decidable q] [Decidable r] [Decidable t],
      (decide p || (decide q != (decide r || decide t))) = true ↔ p ∨ ¬ (q ↔ r ∨ t) := by
    intro p q r t _ _ _ _
    by_cases hq : q <;> by_cases hr : r <;> by_cases ht : t <;> simp [hq, hr, ht]
  rw [Bool.eq_iff_iff, hprop, decide_eq_true_iff]
  split <;> omega

/-! ## Entry and return -/

/-- The flags as `pushfl` stores and `popfl` loads them. -/
def flag_image (flags : BitVec 32) : BitVec 32 := put_flag RF false (put_flag VM false flags)

/-- The flags a gate leaves, an interrupt gate with interrupts off. -/
def gate_flags (interrupt_gate : Bool) (flags : BitVec 32) : BitVec 32 :=
  let flags := put_flag TF false (put_flag NT false (flag_image flags))
  if interrupt_gate then put_flag IF false flags else flags

/-- The kernel stack and the code segment that an entry to the kernel goes to. -/
structure Entry where
  esp0 : BitVec 32
  ss0 : BitVec 16
  cs : BitVec 16

namespace Cpu

/-- The stack that an interrupt puts its frame on. -/
def entry_stack (g : Entry) (s : Cpu) : Cpu :=
  if s.cpl = 0 then s
  else
    let k := { s.set .esp g.esp0 with ss := g.ss0 }
    (k.push (s.ss.setWidth 32)).push (s.reg .esp)

/-- An interrupt through a gate. -/
def deliver (g : Entry) (interrupt_gate : Bool) (s : Cpu) : Cpu :=
  let k := (((s.entry_stack g).push s.eflags).push (s.cs.setWidth 32)).push s.eip
  { k with cs := g.cs, eflags := gate_flags interrupt_gate s.eflags }

/-- `iret`, which also takes back the stack of an outer level. -/
def iret (s : Cpu) : Cpu :=
  let cs := s.pop.top.setWidth 16
  let k := s.pop.pop.pop
  if cs.setWidth 2 = s.cpl then { k with eip := s.top, cs := cs, eflags := s.pop.pop.top }
  else
    { k.set .esp k.top with
      eip := s.top, cs := cs, eflags := s.pop.pop.top, ss := k.pop.top.setWidth 16 }

def popfl (s : Cpu) : Cpu := { s.pop with eflags := flag_image s.top }

/-- A register from the top of the stack. -/
def pop_to (s : Cpu) (r : Reg) : Cpu := s.pop.set r s.top

/-- A push for each register, in order. -/
def pushes (s : Cpu) (rs : List Reg) : Cpu := rs.foldl (fun s r => s.push (s.reg r)) s

/-- A pop for each register. -/
def pops (s : Cpu) (rs : List Reg) : Cpu := rs.foldl pop_to s

/-- `pushal` stores the stack pointer as it was before. -/
def pushal (s : Cpu) : Cpu :=
  ((s.pushes [.eax, .ecx, .edx, .ebx]).push (s.reg .esp)).pushes [.ebp, .esi, .edi]

/-- `popal` skips it. -/
def popal (s : Cpu) : Cpu := (s.pops [.edi, .esi, .ebp]).pop.pops [.ebx, .edx, .ecx, .eax]

end Cpu

/-! ## Blocks -/

/-- A line of a block whose functions are in `F` and whose labels are in `L`. -/
inductive Line (F L : Type*)
  | label (l : L)
  | pushl (r : Reg)
  | popl (r : Reg)
  | pushfl
  | popfl
  | pushal
  | popal
  | movl (v : BitVec 32) (dst : Reg)
  /-- From an address that counts from `%esp`. -/
  | movl_esp (disp : BitVec 32) (dst : Reg)
  | addl (v : BitVec 32) (dst : Reg)
  | cmpl (v : BitVec 32) (dst : Reg)
  | jle (l : L)
  | jg (l : L)
  | jmp (l : L)
  | call (f : F)
  /-- `call *table(, %r, 4)` -/
  | call_table (table : List (Option F)) (index : Reg)
  | int (vector : BitVec 8)
  | iret
  | ret

/-- What a block uses: the functions, from their entry to their return, the handlers of the
interrupts, and the address of the line that `n` lines of the block are behind. -/
structure Context (F : Type*) where
  call : F → Cpu → Cpu
  int : BitVec 8 → Cpu → Option Cpu
  address : ℕ → BitVec 32

/-- A return has to find the address that was put on the stack for it. -/
def back_at (a : BitVec 32) (s : Cpu) : Option Cpu := if s.eip = a then some s else none

section

variable {F L : Type*} [DecidableEq L] (env : Context F)

/-- The block from a line on, skipped up to a label or not, until it returns. -/
def exec : Option L → List (Line F L) → Cpu → Option Cpu
  | _, [], _ => none
  | some l, .label l' :: rest, s => exec (if l' = l then none else some l) rest s
  | some l, _ :: rest, s => exec (some l) rest s
  | none, .label _ :: rest, s => exec none rest s
  | none, .pushl r :: rest, s => exec none rest (s.push (s.reg r))
  | none, .popl r :: rest, s => exec none rest (s.pop_to r)
  | none, .pushfl :: rest, s => exec none rest (s.push (flag_image s.eflags))
  | none, .popfl :: rest, s => exec none rest s.popfl
  | none, .pushal :: rest, s => exec none rest s.pushal
  | none, .popal :: rest, s => exec none rest s.popal
  | none, .movl v dst :: rest, s => exec none rest (s.set dst v)
  | none, .movl_esp disp dst :: rest, s =>
      exec none rest (s.set dst (load32 s.mem (s.reg .esp + disp)))
  | none, .addl v dst :: rest, s =>
      exec none rest { s.set dst (s.reg dst + v) with eflags := add_flags (s.reg dst) v s.eflags }
  | none, .cmpl v dst :: rest, s =>
      exec none rest { s with eflags := cmp_flags (s.reg dst) v s.eflags }
  | none, .jle l :: rest, s => exec (if less_or_equal s.eflags then some l else none) rest s
  | none, .jg l :: rest, s => exec (if less_or_equal s.eflags then none else some l) rest s
  | none, .jmp l :: rest, s => exec (some l) rest s
  | none, .call f :: rest, s =>
      (back_at (env.address rest.length) (env.call f (s.push (env.address rest.length)))).bind
        (exec none rest)
  | none, .call_table table index :: rest, s =>
      (table[(s.reg index).toNat]?.join).bind fun f =>
        (back_at (env.address rest.length) (env.call f (s.push (env.address rest.length)))).bind
          (exec none rest)
  | none, .int vector :: rest, s =>
      ((env.int vector { s with eip := env.address rest.length }).bind
        (back_at (env.address rest.length))).bind (exec none rest)
  | none, .iret :: _, s => some s.iret
  | none, .ret :: _, s => some { s.pop with eip := s.top }

end

/-! ## The stack -/

/-- `a` is none of the `n` bytes below an address. -/
def ClearOf (top : BitVec 32) (n : ℕ) (a : BitVec 32) : Prop :=
  ∀ i, 0 < i → i ≤ n → a ≠ top - BitVec.ofNat 32 i

/-- The words on the stack, from the top, with room for `n` more bytes below it and none of the
bytes of `K` in that room. Those are as they were in `m`. -/
structure OnStack (K : BitVec 32 → Prop) (m : Memory) (s : Cpu) (ws : List (BitVec 32)) (n : ℕ) :
    Prop where
  words : Words s.mem (s.reg .esp) ws
  kept : ∀ a, K a → s.mem a = m a
  room : ∀ a, K a → ClearOf (s.reg .esp) n a
  depth : 4 * ws.length + n ≤ 2 ^ 32

theorem sub_four_add {a : BitVec 32} {k : ℕ} (hk : k < 4) :
    a - 4 + BitVec.ofNat 32 k = a - BitVec.ofNat 32 (4 - k) := by
  have hsum : BitVec.ofNat 32 k + BitVec.ofNat 32 (4 - k) = 4 := by
    rw [← BitVec.ofNat_add, Nat.add_sub_cancel' (Nat.le_of_lt hk)]
    rfl
  rw [BitVec.eq_sub_iff_add_eq, BitVec.add_assoc, hsum, BitVec.sub_add_cancel]

theorem sub_four_sub (a : BitVec 32) (i : ℕ) :
    a - 4 - BitVec.ofNat 32 i = a - BitVec.ofNat 32 (i + 4) := by
  rw [BitVec.ofNat_add, BitVec.sub_sub, BitVec.add_comm]
  rfl

namespace Cpu

@[simp] theorem set_reg_self (s : Cpu) (r : Reg) (v : BitVec 32) : (s.set r v).reg r = v :=
  Function.update_self _ _ _

@[simp] theorem set_reg_ne (s : Cpu) {r r' : Reg} (v : BitVec 32) (h : r' ≠ r) :
    (s.set r v).reg r' = s.reg r' := Function.update_of_ne h _ _

@[simp] theorem push_reg_ne (s : Cpu) (v : BitVec 32) {r : Reg} (h : r ≠ .esp) :
    (s.push v).reg r = s.reg r := set_reg_ne s _ h

@[simp] theorem push_esp (s : Cpu) (v : BitVec 32) : (s.push v).reg .esp = s.reg .esp - 4 :=
  set_reg_self s .esp (s.reg .esp - 4)

@[simp] theorem pop_reg_ne (s : Cpu) {r : Reg} (h : r ≠ .esp) : s.pop.reg r = s.reg r :=
  set_reg_ne s _ h

@[simp] theorem pop_esp (s : Cpu) : s.pop.reg .esp = s.reg .esp + 4 := set_reg_self s _ _

@[simp] theorem popfl_reg (s : Cpu) : s.popfl.reg = s.pop.reg := rfl

end Cpu

namespace OnStack

variable {K : BitVec 32 → Prop} {m : Memory} {s : Cpu} {w : BitVec 32} {ws : List (BitVec 32)} {n : ℕ}

theorem push (h : OnStack K m s ws (n + 4)) (v : BitVec 32) : OnStack K m (s.push v) (v :: ws) n where
  words := by
    have hdepth := h.depth
    rw [Cpu.push_esp]
    exact h.words.store v (by omega)
  kept a ha := by
    rw [← h.kept a ha]
    refine store32_of_ne fun k hk => ?_
    rw [sub_four_add hk]
    exact h.room a ha (4 - k) (by omega) (by omega)
  room a ha i hi hin := by
    rw [Cpu.push_esp, sub_four_sub]
    exact h.room a ha (i + 4) (by omega) (by omega)
  depth := by
    have hdepth := h.depth
    rw [List.length_cons]
    omega

theorem pop (h : OnStack K m s (w :: ws) n) : s.top = w ∧ OnStack K m s.pop ws 0 := by
  have hdepth := h.depth
  rw [List.length_cons] at hdepth
  refine ⟨h.words.1, ?_, h.kept, fun a _ i hi hin => by omega, by omega⟩
  rw [Cpu.pop_esp]
  exact h.words.2

/-- Only the stack pointer and the memory matter. -/
theorem congr (h : OnStack K m s ws n) (s' : Cpu) (hesp : s'.reg .esp = s.reg .esp)
    (hmem : s'.mem = s.mem) : OnStack K m s' ws n := by
  obtain ⟨hwords, hkept, hroom, hdepth⟩ := h
  refine ⟨?_, ?_, ?_, hdepth⟩
  · rwa [hesp, hmem]
  · rwa [hmem]
  · rwa [hesp]

theorem popfl (h : OnStack K m s (w :: ws) n) : OnStack K m s.popfl ws 0 := h.pop.2.congr _ rfl rfl

theorem pop_to (h : OnStack K m s (w :: ws) n) {r : Reg} (hr : r ≠ .esp) :
    (s.pop_to r).reg r = w ∧ OnStack K m (s.pop_to r) ws 0 := by
  obtain ⟨htop, hpop⟩ := h.pop
  refine ⟨(Cpu.set_reg_self _ _ _).trans htop, hpop.congr _ ?_ rfl⟩
  exact Cpu.set_reg_ne _ _ hr.symm

theorem weaken {n' : ℕ} (h : OnStack K m s ws n) (hn : n' ≤ n) : OnStack K m s ws n' :=
  ⟨h.words, h.kept, fun a ha i hi hin => h.room a ha i hi (Nat.le_trans hin hn), by
    have hdepth := h.depth
    omega⟩

end OnStack

/-! ## Saved registers -/

/-- Apart from the registers and the memory, `s'` is `s`. -/
structure SameControl (s s' : Cpu) : Prop where
  eip : s'.eip = s.eip
  cs : s'.cs = s.cs
  ss : s'.ss = s.ss
  eflags : s'.eflags = s.eflags

theorem SameControl.trans {s s' s'' : Cpu} (h : SameControl s s') (h' : SameControl s' s'') :
    SameControl s s'' :=
  ⟨h'.eip.trans h.eip, h'.cs.trans h.cs, h'.ss.trans h.ss, h'.eflags.trans h.eflags⟩

theorem push_kept (s : Cpu) (v : BitVec 32) : SameControl s (s.push v) := ⟨rfl, rfl, rfl, rfl⟩

theorem pushes_kept (s : Cpu) (rs : List Reg) : SameControl s (s.pushes rs) ∧
    (∀ r, r ≠ .esp → (s.pushes rs).reg r = s.reg r) ∧
      (s.pushes rs).reg .esp + BitVec.ofNat 32 (4 * rs.length) = s.reg .esp := by
  induction rs generalizing s with
  | nil => exact ⟨⟨rfl, rfl, rfl, rfl⟩, fun _ _ => rfl, add_ofNat_zero _⟩
  | cons r rs ih =>
      obtain ⟨hcontrol, hreg, hesp⟩ := ih (s.push (s.reg r))
      refine ⟨⟨hcontrol.eip, hcontrol.cs, hcontrol.ss, hcontrol.eflags⟩, fun r' hr' => ?_, ?_⟩
      · exact (hreg r' hr').trans (Cpu.push_reg_ne _ _ hr')
      · rw [Cpu.push_esp] at hesp
        have hfour : (4 : BitVec 32) = BitVec.ofNat 32 4 := rfl
        rw [List.length_cons, Nat.mul_succ, BitVec.ofNat_add, ← BitVec.add_assoc, ← hfour]
        exact (congrArg (· + 4) hesp).trans (BitVec.sub_add_cancel _ _)

section

variable {K : BitVec 32 → Prop} {m : Memory} {s : Cpu} {ws : List (BitVec 32)} {n : ℕ}

theorem onStack_pushes (rs : List Reg) (hrs : .esp ∉ rs) (h : OnStack K m s ws (n + 4 * rs.length)) :
    OnStack K m (s.pushes rs) ((rs.map s.reg).reverse ++ ws) n := by
  induction rs generalizing s ws with
  | nil => exact h
  | cons r rs ih =>
      rw [List.mem_cons, not_or] at hrs
      rw [List.length_cons, Nat.mul_succ, ← Nat.add_assoc] at h
      have hrest := ih hrs.2 (h.push (s.reg r))
      have hsame : rs.map (s.push (s.reg r)).reg = rs.map s.reg := by
        apply List.map_congr_left
        intro r' hr'
        exact Cpu.push_reg_ne _ _ fun hesp => hrs.2 (hesp ▸ hr')
      rw [hsame] at hrest
      rw [List.map_cons, List.reverse_cons, List.append_assoc]
      exact hrest

/-- **Registers come back with the words that are popped into them.** -/
theorem onStack_pops {rs : List Reg} {v : Reg → BitVec 32} (hrs : .esp ∉ rs) (hnodup : rs.Nodup)
    (h : OnStack K m s (rs.map v ++ ws) n) : OnStack K m (s.pops rs) ws 0 ∧
      SameControl s (s.pops rs) ∧ (s.pops rs).mem = s.mem ∧
      (∀ r, r ≠ .esp → (s.pops rs).reg r = if r ∈ rs then v r else s.reg r) ∧
      (s.pops rs).reg .esp = s.reg .esp + BitVec.ofNat 32 (4 * rs.length) := by
  induction rs generalizing s n with
  | nil =>
      refine ⟨h.weaken (Nat.zero_le n), ⟨rfl, rfl, rfl, rfl⟩, rfl, fun _ _ => ?_, ?_⟩
      · rw [if_neg List.not_mem_nil]
        rfl
      · exact (add_ofNat_zero _).symm
  | cons r rs ih =>
      rw [List.mem_cons, not_or] at hrs
      rw [List.nodup_cons] at hnodup
      obtain ⟨hr, hpop⟩ := OnStack.pop_to h (Ne.symm hrs.1)
      obtain ⟨hrest, hcontrol, hmem, hreg, hesp⟩ := ih hrs.2 hnodup.2 hpop
      refine ⟨hrest, ⟨hcontrol.eip, hcontrol.cs, hcontrol.ss, hcontrol.eflags⟩, hmem,
        fun r' hr' => (hreg r' hr').trans ?_, hesp.trans ?_⟩
      · by_cases hlater : r' ∈ rs
        · rw [if_pos hlater, if_pos (List.mem_cons_of_mem r hlater)]
        · rw [if_neg hlater]
          by_cases hnow : r' = r
          · rw [hnow, if_pos List.mem_cons_self]
            exact hr
          · rw [if_neg (by simp [hnow, hlater])]
            exact (Cpu.set_reg_ne _ _ hnow).trans (Cpu.pop_reg_ne _ hr')
      · have hone : (s.pop_to r).reg .esp = s.reg .esp + 4 :=
          (Cpu.set_reg_ne _ _ hrs.1).trans (Cpu.pop_esp s)
        have hfour : (4 : BitVec 32) = BitVec.ofNat 32 4 := rfl
        rw [hone, List.length_cons, Nat.mul_succ, Nat.add_comm, BitVec.ofNat_add, ← BitVec.add_assoc,
          hfour]

/-- The registers as `pushal` leaves them, from the top. -/
def all_registers (s : Cpu) : List (BitVec 32) :=
  [s.reg .edi, s.reg .esi, s.reg .ebp, s.reg .esp, s.reg .ebx, s.reg .edx, s.reg .ecx, s.reg .eax]

theorem onStack_pushal (h : OnStack K m s ws (n + 32)) :
    OnStack K m s.pushal (all_registers s ++ ws) n ∧ SameControl s s.pushal ∧
      s.pushal.reg .esp + 32 = s.reg .esp := by
  have hlow := onStack_pushes [.eax, .ecx, .edx, .ebx] (n := n + 16) (by decide) h
  obtain ⟨hc₁, hr₁, he₁⟩ := pushes_kept s [.eax, .ecx, .edx, .ebx]
  unfold Cpu.pushal
  generalize s.pushes [.eax, .ecx, .edx, .ebx] = s₁ at hlow hc₁ hr₁ he₁ ⊢
  have hhigh := onStack_pushes [.ebp, .esi, .edi] (n := n) (by decide)
    (hlow.push (s.reg .esp))
  obtain ⟨hc₂, -, he₂⟩ := pushes_kept (s₁.push (s.reg .esp)) [.ebp, .esi, .edi]
  have hmid : ∀ r, r ≠ .esp → (s₁.push (s.reg .esp)).reg r = s.reg r :=
    fun r hr => (Cpu.push_reg_ne _ _ hr).trans (hr₁ r hr)
  refine ⟨?_, hc₁.trans ⟨hc₂.eip, hc₂.cs, hc₂.ss, hc₂.eflags⟩, ?_⟩
  · simp only [List.map_cons, List.map_nil, List.reverse_cons, List.reverse_nil, List.nil_append,
      List.cons_append, hmid .ebp (by decide), hmid .esi (by decide), hmid .edi (by decide)] at hhigh
    exact hhigh
  · generalize (s₁.push (s.reg .esp)).pushes [.ebp, .esi, .edi] = s₂ at he₂ ⊢
    have hsum : (32 : BitVec 32) = BitVec.ofNat 32 (4 * 3) + 4 + BitVec.ofNat 32 (4 * 4) := rfl
    rw [Cpu.push_esp, BitVec.eq_sub_iff_add_eq] at he₂
    rw [hsum, ← BitVec.add_assoc, ← BitVec.add_assoc, ← he₁, ← he₂]
    rfl

/-- **`popal` takes back what `pushal` has stored**, but for the stack pointer. -/
theorem onStack_popal {k : Cpu} (h : OnStack K m k (all_registers s ++ ws) n) :
    OnStack K m k.popal ws 0 ∧ SameControl k k.popal ∧ k.popal.mem = k.mem ∧
      (∀ r, r ≠ .esp → k.popal.reg r = s.reg r) ∧ k.popal.reg .esp = k.reg .esp + 32 := by
  have hhigh : OnStack K m k ([Reg.edi, .esi, .ebp].map s.reg ++ s.reg .esp ::
      ([Reg.ebx, .edx, .ecx, .eax].map s.reg ++ ws)) n := h
  obtain ⟨h₁, hc₁, hm₁, hr₁, he₁⟩ := onStack_pops (by decide) (by decide) hhigh
  obtain ⟨-, h₂⟩ := OnStack.pop h₁
  obtain ⟨h₃, hc₃, hm₃, hr₃, he₃⟩ := onStack_pops (by decide) (by decide) h₂
  refine ⟨h₃, hc₁.trans ⟨hc₃.eip, hc₃.cs, hc₃.ss, hc₃.eflags⟩, hm₃.trans hm₁, fun r hr => ?_, ?_⟩
  · refine (hr₃ r hr).trans ?_
    rw [Cpu.pop_reg_ne _ hr, hr₁ r hr]
    cases r with
    | esp => exact absurd rfl hr
    | eax | ecx | edx | ebx | ebp | esi | edi => rfl
  · refine he₃.trans ?_
    rw [Cpu.pop_esp, he₁, BitVec.add_assoc, BitVec.add_assoc]
    rfl

end

/-! ## Interrupts -/

/-- What an interrupt puts on the stack, from the top. -/
def frame (s : Cpu) : List (BitVec 32) :=
  s.eip :: s.cs.setWidth 32 :: s.eflags ::
    if s.cpl = 0 then [] else [s.reg .esp, s.ss.setWidth 32]

/-- Where the stack of the handler begins. -/
def entry_esp (g : Entry) (s : Cpu) : BitVec 32 := if s.cpl = 0 then s.reg .esp else g.esp0

/-- The bytes of the frame. -/
def frame_size (s : Cpu) : ℕ := if s.cpl = 0 then 12 else 20

theorem setWidth_16_32 (x : BitVec 16) : (x.setWidth 32).setWidth 16 = x := by
  rw [BitVec.setWidth_setWidth_of_le _ (by decide), BitVec.setWidth_eq]

variable {K : BitVec 32 → Prop} {m : Memory} {g : Entry} {s k : Cpu} {ws : List (BitVec 32)} {n : ℕ}

/-- **An interrupt puts its frame on an empty stack**, or behind what the kernel has there. -/
theorem onStack_deliver (interrupt_gate : Bool)
    (hroom : ∀ a, K a → ClearOf (entry_esp g s) (n + frame_size s) a)
    (hn : n + frame_size s ≤ 2 ^ 32) :
    OnStack K s.mem (s.deliver g interrupt_gate) (frame s) n ∧
      (s.deliver g interrupt_gate).reg .esp = entry_esp g s - BitVec.ofNat 32 (frame_size s) := by
  unfold frame_size entry_esp at *
  unfold Cpu.deliver Cpu.entry_stack frame
  by_cases hcpl : s.cpl = 0
  · simp only [if_pos hcpl] at hroom hn ⊢
    have hstart : OnStack K s.mem s [] (n + 12) :=
      ⟨trivial, fun _ _ => rfl, hroom, by rw [List.length_nil]; omega⟩
    have hpush := ((hstart.push s.eflags).push (s.cs.setWidth 32)).push s.eip
    refine ⟨hpush.congr _ rfl rfl, ?_⟩
    rw [Cpu.push_esp, Cpu.push_esp, Cpu.push_esp, BitVec.sub_sub, BitVec.sub_sub]
    rfl
  · simp only [if_neg hcpl] at hroom hn ⊢
    have hesp : (s.set .esp g.esp0).reg .esp = g.esp0 := Cpu.set_reg_self _ _ _
    have hstart : OnStack K s.mem { s.set .esp g.esp0 with ss := g.ss0 } [] (n + 20) := by
      refine ⟨trivial, fun _ _ => rfl, ?_, by rw [List.length_nil]; omega⟩
      dsimp only
      rwa [hesp]
    have hpush := ((((hstart.push (s.ss.setWidth 32)).push (s.reg .esp)).push s.eflags).push
      (s.cs.setWidth 32)).push s.eip
    refine ⟨hpush.congr _ rfl rfl, ?_⟩
    rw [Cpu.push_esp, Cpu.push_esp, Cpu.push_esp, Cpu.push_esp, Cpu.push_esp, BitVec.sub_sub,
      BitVec.sub_sub, BitVec.sub_sub, BitVec.sub_sub]
    exact congrArg (· - BitVec.ofNat 32 20) hesp

/-- What an interrupt leaves in the other registers. -/
theorem deliver_kept (g : Entry) (interrupt_gate : Bool) (s : Cpu) :
    (∀ r, r ≠ .esp → (s.deliver g interrupt_gate).reg r = s.reg r) ∧
      (s.deliver g interrupt_gate).cs = g.cs ∧
      (s.cpl = 0 → (s.deliver g interrupt_gate).ss = s.ss) := by
  unfold Cpu.deliver Cpu.entry_stack
  refine ⟨fun r hr => ?_, rfl, fun hcpl => ?_⟩
  · by_cases hcpl : s.cpl = 0
    · simp only [if_pos hcpl, Cpu.push_reg_ne _ _ hr]
    · simp only [if_neg hcpl, Cpu.push_reg_ne _ _ hr]
      exact Cpu.set_reg_ne _ _ hr
  · rw [if_pos hcpl]
    rfl

/-- `s'` goes on where `s` was interrupted, with the registers and the memory of `k`. -/
structure Resumes (s k s' : Cpu) : Prop where
  eip : s'.eip = s.eip
  cs : s'.cs = s.cs
  ss : s'.ss = s.ss
  eflags : s'.eflags = s.eflags
  esp : s'.reg .esp = s.reg .esp
  reg : ∀ r, r ≠ .esp → s'.reg r = k.reg r
  mem : s'.mem = k.mem

/-- **`iret` takes the frame back.** -/
theorem resumes_iret (h : OnStack K m k (frame s) n) (hcpl : k.cpl = 0)
    (hsame : s.cpl = 0 → k.ss = s.ss ∧ k.reg .esp + 12 = s.reg .esp) : Resumes s k k.iret := by
  unfold frame at h
  obtain ⟨heip, h₁⟩ := h.pop
  obtain ⟨hcs, h₂⟩ := h₁.pop
  obtain ⟨hflags, h₃⟩ := h₂.pop
  have hseg : k.pop.top.setWidth 16 = s.cs := by rw [hcs, setWidth_16_32]
  have hesp : k.pop.pop.pop.reg .esp = k.reg .esp + 12 := by
    rw [Cpu.pop_esp, Cpu.pop_esp, Cpu.pop_esp, BitVec.add_assoc, BitVec.add_assoc]
    rfl
  unfold Cpu.iret
  dsimp only
  rw [hseg, hcpl, heip, hflags]
  by_cases hs : s.cpl = 0
  · obtain ⟨hss, hsp⟩ := hsame hs
    have hlevel : s.cs.setWidth 2 = 0 := hs
    rw [if_pos hlevel]
    exact ⟨rfl, rfl, hss, rfl, hesp.trans hsp, fun r hr => by simp [hr], rfl⟩
  · rw [if_neg hs] at h₃
    obtain ⟨hsp, h₄⟩ := OnStack.pop h₃
    obtain ⟨hss, -⟩ := OnStack.pop h₄
    have hlevel : s.cs.setWidth 2 ≠ 0 := hs
    rw [if_neg hlevel]
    refine ⟨rfl, rfl, ?_, rfl, ?_, fun r hr => by simp [hr], rfl⟩
    · rw [hss, setWidth_16_32]
    · dsimp only
      rw [Cpu.set_reg_self]
      exact hsp

/-! ## Calls -/

/-- A function, entered in `e` with `args` words of arguments behind its return address and `words`
more words that the callers have on the stack, returns behind the call, and leaves the callers'
words and the bytes of `K` alone. -/
structure Returns (K : BitVec 32 → Prop) (args words : ℕ) (f : Cpu → Cpu) (e : Cpu) : Prop where
  eip : (f e).eip = e.top
  esp : (f e).reg .esp = e.reg .esp + 4
  cs : (f e).cs = e.cs
  ss : (f e).ss = e.ss
  kept : ∀ a, K a → (f e).mem a = e.mem a
  above : ∀ i, 4 * args ≤ i → i < 4 * (args + words) →
    (f e).mem (e.reg .esp + 4 + BitVec.ofNat 32 i) = e.mem (e.reg .esp + 4 + BitVec.ofNat 32 i)

/-- A C function returns with the registers that it has to save. -/
structure Cdecl (K : BitVec 32 → Prop) (args words : ℕ) (f : Cpu → Cpu) (e : Cpu) : Prop
    extends Returns K args words f e where
  saved : ∀ r, r = .ebx ∨ r = .ebp ∨ r = .esi ∨ r = .edi → (f e).reg r = e.reg r

/-- **A call** comes back with the stack where it was, and the words behind the arguments on it. -/
theorem Returns.back (as : List (BitVec 32)) {f : Cpu → Cpu} {a : BitVec 32}
    (hf : Returns K as.length ws.length f (s.push a)) (h : OnStack K m s (as ++ ws) (n + 4)) :
    back_at a (f (s.push a)) = some (f (s.push a)) ∧ (f (s.push a)).reg .esp = s.reg .esp ∧
      OnStack K m ((f (s.push a)).set .esp (s.reg .esp + BitVec.ofNat 32 (4 * as.length))) ws 0 := by
  obtain ⟨htop, -⟩ := (h.push a).pop
  have hesp : (f (s.push a)).reg .esp = s.reg .esp := by
    rw [hf.esp, Cpu.push_esp, BitVec.sub_add_cancel]
  refine ⟨if_pos (hf.eip.trans htop), hesp, ?_, fun b hb => ?_, fun b _ i hi hin => by omega, ?_⟩
  · -- the callers' words are as they were on the stack with the return address
    have hwords := (h.push a).words.2
    rw [Cpu.push_esp, BitVec.sub_add_cancel] at hwords
    have hrest := hwords.drop
    rw [Cpu.set_reg_self]
    refine hrest.congr fun i hi => ?_
    have hidx : s.reg .esp + BitVec.ofNat 32 (4 * as.length) + BitVec.ofNat 32 i
        = (s.push a).reg .esp + 4 + BitVec.ofNat 32 (4 * as.length + i) := by
      rw [Cpu.push_esp, BitVec.sub_add_cancel, BitVec.add_assoc, ← BitVec.ofNat_add]
    rw [hidx]
    exact hf.above _ (by omega) (by omega)
  · exact (hf.kept b hb).trans ((h.push a).kept b hb)
  · have hdepth := h.depth
    rw [List.length_append] at hdepth
    omega

end CallStack
