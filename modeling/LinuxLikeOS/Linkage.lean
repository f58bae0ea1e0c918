/-
The way into the kernel and back: `syscalls_linkage.S`, `interrupt_link.S` and the stubs of
`ece391syscall.S`.

The C functions are parameters, and so is where they put their results. Of a handler the
calling convention of the compiler is asked (`Cdecl`), since the linkage of the interrupts leaves
its registers to it. The linkage of the system calls restores them itself, so that the function of
a call is only asked to return (`Returns`), which `system_execute` does through `execute_return`
without the registers it was called with, and `system_halt` does not.
-/
import LinuxLikeOS.CallStack
import Mathlib.Tactic.IntervalCases

set_option autoImplicit false

namespace LinuxLikeOS

open CallStack
open Ia32 (Memory load32)

/-! ## The code -/

/-- The C functions that the assembly files call. -/
inductive LinkedFunction
  | system_halt | system_execute | system_read | system_write | system_open | system_close
  | system_getargs | system_vidmap | system_set_handler | system_sigreturn
  | keyboard_handler | RTC_handler | pit_handler
  deriving DecidableEq

inductive LinkLabel
  | invalid_number | finished
  deriving DecidableEq

def NUM_SYS_CALLS : BitVec 32 := 10

def sys_call_table : List (Option LinkedFunction) :=
  [none, some .system_halt, some .system_execute, some .system_read, some .system_write,
    some .system_open, some .system_close, some .system_getargs, some .system_vidmap,
    some .system_set_handler, some .system_sigreturn]

/-- From the label `finished` on. -/
def finished_lines : List (Line LinkedFunction LinkLabel) :=
  [.label .finished, .popl .ebx, .popl .ecx, .popl .edx, .popl .esi, .popl .edi, .popl .ebp,
    .popl .esp, .popfl, .iret]

def system_call_linkage : List (Line LinkedFunction LinkLabel) :=
  [.pushfl, .pushl .esp, .pushl .ebp, .pushl .edi, .pushl .esi, .pushl .edx, .pushl .ecx,
    .pushl .ebx,
    .cmpl 0 .eax, .jle .invalid_number, .cmpl NUM_SYS_CALLS .eax, .jg .invalid_number,
    .pushl .edx, .pushl .ecx, .pushl .ebx, .call_table sys_call_table .eax, .addl 12 .esp,
    .jmp .finished,
    .label .invalid_number, .movl (-1) .eax] ++ finished_lines

/-- `INTR_LINK` of a handler. -/
def INTR_LINK (func : LinkedFunction) : List (Line LinkedFunction LinkLabel) :=
  [.pushal, .pushfl, .call func, .popfl, .popal, .iret]

def keyboard_handler_linkage := INTR_LINK .keyboard_handler
def rtc_handler_linkage := INTR_LINK .RTC_handler
def pit_handler_linkage := INTR_LINK .pit_handler

/-- `DO_CALL` of a number, in the programs. -/
def DO_CALL (number : BitVec 32) : List (Line LinkedFunction LinkLabel) :=
  [.pushl .ebx, .movl number .eax, .movl_esp 8 .ebx, .movl_esp 12 .ecx, .movl_esp 16 .edx,
    .int 0x80, .popl .ebx, .ret]

def ece391_halt := DO_CALL 1
def ece391_execute := DO_CALL 2
def ece391_read := DO_CALL 3
def ece391_write := DO_CALL 4
def ece391_open := DO_CALL 5
def ece391_close := DO_CALL 6
def ece391_getargs := DO_CALL 7
def ece391_vidmap := DO_CALL 8
def ece391_set_handler := DO_CALL 9
def ece391_sigreturn := DO_CALL 10

/-- What the linkage is run with. It makes no interrupt of its own. -/
def kernel_context (call : LinkedFunction → Cpu → Cpu) (address : ℕ → BitVec 32) :
    Context LinkedFunction := ⟨call, fun _ _ => none, address⟩

/-- What a stub is run with: vector `0x80` is a trap gate to `system_call_linkage`. -/
def user_context (call : LinkedFunction → Cpu → Cpu) (g : Entry) (kernel_address address : ℕ → BitVec 32) :
    Context LinkedFunction where
  call := call
  int vector s :=
    if vector = 0x80 then
      exec (kernel_context call kernel_address) none system_call_linkage (s.deliver g false)
    else none
  address := address

/-- `s'` is `s` again, but for bytes that are not in `K`. -/
structure Unnoticed (K : BitVec 32 → Prop) (s s' : Cpu) : Prop where
  reg : ∀ r, s'.reg r = s.reg r
  control : SameControl s s'
  mem : ∀ a, K a → s'.mem a = s.mem a

section

variable {K : BitVec 32 → Prop} {s : Cpu} {g : Entry}

/-! ## Interrupts -/

/-- **An interrupt is not noticed**, in a program or in the kernel, when its handler returns and
neither the handler nor the stack of the kernel touches what is looked at. -/
theorem interrupt_unnoticed {call : LinkedFunction → Cpu → Cpu} {func : LinkedFunction}
    (address : ℕ → BitVec 32) (interrupt_gate : Bool) (hg : g.cs.setWidth 2 = 0)
    (hroom : ∀ a, K a → ClearOf (entry_esp g s) 60 a)
    (hcall : ∀ e, e.reg .esp + 40 = entry_esp g s - BitVec.ofNat 32 (frame_size s) →
      Cdecl K 0 (9 + (frame s).length) (call func) e) :
    ∃ s', exec (kernel_context call address) none (INTR_LINK func) (s.deliver g interrupt_gate)
      = some s' ∧ Unnoticed K s s' := by
  have hsize : frame_size s ≤ 20 := by
    unfold frame_size
    split <;> decide
  obtain ⟨hd, hdesp⟩ := onStack_deliver (n := 40) interrupt_gate
    (fun a ha i hi hin => hroom a ha i hi (by omega)) (by omega)
  obtain ⟨hdreg, hdcs, hdss⟩ := deliver_kept g interrupt_gate s
  generalize hdel : s.deliver g interrupt_gate = d at hd hdesp hdreg hdcs hdss ⊢
  obtain ⟨hp, hpc, hpesp⟩ := onStack_pushal (n := 8) hd
  have hq := hp.push (flag_image d.pushal.eflags)
  have hqc := hpc.trans (push_kept d.pushal (flag_image d.pushal.eflags))
  have hqesp : (d.pushal.push (flag_image d.pushal.eflags)).reg .esp + 36 = d.reg .esp := by
    have hsum : (36 : BitVec 32) = 4 + 32 := rfl
    rw [Cpu.push_esp, ← hpesp, hsum, ← BitVec.add_assoc, BitVec.sub_add_cancel]
  have hexec : exec (kernel_context call address) none (INTR_LINK func) d
      = exec (kernel_context call address) none ([.call func, .popfl, .popal, .iret] : List (Line LinkedFunction LinkLabel))
        (d.pushal.push (flag_image d.pushal.eflags)) := rfl
  rw [hexec]
  generalize d.pushal.push (flag_image d.pushal.eflags) = q at hq hqc hqesp ⊢
  -- the handler
  have hf := hcall (q.push (address 3)) (by
    have hsum : (40 : BitVec 32) = 4 + 36 := rfl
    rw [Cpu.push_esp, hsum, ← BitVec.add_assoc, BitVec.sub_add_cancel, hqesp, hdesp])
  have hwords : 9 + (frame s).length
      = (flag_image d.pushal.eflags :: (all_registers d ++ frame s)).length := by
    rw [List.length_cons, List.length_append]
    unfold all_registers
    simp only [List.length_cons, List.length_nil]
    omega
  rw [hwords] at hf
  obtain ⟨hback, hresp, hr⟩ := hf.toReturns.back [] hq
  have hcs := hf.cs
  have hss := hf.ss
  have hexec' : exec (kernel_context call address) none
        ([.call func, .popfl, .popal, .iret] : List (Line LinkedFunction LinkLabel)) q
      = (back_at (address 3) (call func (q.push (address 3)))).bind fun s =>
        some s.popfl.popal.iret := rfl
  rw [hexec', hback, Option.bind_some]
  generalize call func (q.push (address 3)) = r at hresp hr hcs hss ⊢
  -- the flags of the handler, its registers, and the frame
  have hk := (hr.congr r (by
    rw [Cpu.set_reg_self, hresp]
    exact (add_ofNat_zero _).symm) rfl).popfl
  have hkcs : r.popfl.cs = d.cs := hcs.trans hqc.cs
  have hkss : r.popfl.ss = d.ss := hss.trans hqc.ss
  have hkesp : r.popfl.reg .esp + 32 = d.reg .esp := by
    have hsum : (36 : BitVec 32) = 4 + 32 := rfl
    rw [← hqesp, hsum, ← BitVec.add_assoc, ← hresp, Cpu.popfl_reg, Cpu.pop_esp]
  generalize r.popfl = k at hk hkcs hkss hkesp ⊢
  obtain ⟨hpop, hcontrol, hmem, hreg, hesp⟩ := onStack_popal hk
  have hres := resumes_iret hpop (by
    unfold Cpu.cpl
    rw [hcontrol.cs, hkcs, hdcs, hg]) fun hcpl => ⟨hcontrol.ss.trans (hkss.trans (hdss hcpl)), by
      have hstart : entry_esp g s = s.reg .esp := if_pos hcpl
      have hsize' : frame_size s = 12 := if_pos hcpl
      rw [hesp, hkesp, hdesp, hstart, hsize']
      exact BitVec.sub_add_cancel _ _⟩
  refine ⟨_, rfl, fun r' => ?_, ⟨hres.eip, hres.cs, hres.ss, hres.eflags⟩, fun a ha => ?_⟩
  · by_cases hr' : r' = .esp
    · rw [hr']
      exact hres.esp
    · rw [hres.reg r' hr', hreg r' hr', hdreg r' hr']
  · rw [hres.mem]
    exact hpop.kept a ha

/-- A function that returns its first argument. -/
def first_argument (_ : LinkedFunction) (e : Cpu) : Cpu :=
  { e.pop.set .eax (load32 e.mem (e.reg .esp + 4)) with eip := e.top }

theorem cdecl_first_argument (K : BitVec 32 → Prop) (args words : ℕ) (f : LinkedFunction) (e : Cpu) :
    Cdecl K args words (first_argument f) e where
  eip := rfl
  esp := (Cpu.set_reg_ne (r := .eax) e.pop (load32 e.mem (e.reg .esp + 4)) (by decide)).trans
    (Cpu.pop_esp e)
  saved r hr := by
    have hne : r ≠ .eax ∧ r ≠ .esp := by
      rcases hr with rfl | rfl | rfl | rfl <;> decide
    exact (Cpu.set_reg_ne (r := .eax) _ _ hne.1).trans (Cpu.pop_reg_ne _ hne.2)
  cs := rfl
  ss := rfl
  kept _ _ := rfl
  above _ _ _ := rfl

/-- A program that is about to close descriptor 7. -/
def closing_program : Cpu where
  reg r := match r with
    | .eax => 6
    | .ebx => 7
    | .esp => 0x083FFFF0
    | _ => 0
  eflags := 0x202
  eip := 0x08048000
  cs := 0x23
  ss := 0x2B
  mem _ := 0

def first_kernel_stack : Entry := ⟨0x007FFFFC, 0x18, 0x10⟩

theorem clearOf_kernel_stack {n : ℕ} (hn : n ≤ 68) {a : BitVec 32} (ha : 0x08000000 ≤ a.toNat) :
    ClearOf first_kernel_stack.esp0 n a := by
  intro i hi hin heq
  have hnat := congrArg BitVec.toNat heq
  have hesp : first_kernel_stack.esp0.toNat = 0x007FFFFC := rfl
  rw [BitVec.toNat_sub, BitVec.toNat_ofNat, hesp] at hnat
  omega

theorem interrupt_unnoticed_demo :
    ∃ s', exec (kernel_context first_argument (BitVec.ofNat 32)) none keyboard_handler_linkage
      (closing_program.deliver first_kernel_stack true) = some s' ∧
        Unnoticed (fun a => 0x08000000 ≤ a.toNat) closing_program s' :=
  interrupt_unnoticed _ true rfl (fun _ ha => clearOf_kernel_stack (by decide) ha)
    fun e _ => cdecl_first_argument _ _ _ _ e

/-! ## System calls -/

/-- The function of a system call number. -/
def called (number : BitVec 32) : Option LinkedFunction :=
  if 0 < number.toInt ∧ number.toInt ≤ NUM_SYS_CALLS.toInt then sys_call_table[number.toNat]?.join
  else none

/-- What is behind the pushes of the linkage. -/
def saved (d : Cpu) : Cpu :=
  let p := d.push (flag_image d.eflags)
  (p.push (p.reg .esp)).pushes [.ebp, .edi, .esi, .edx, .ecx, .ebx]

/-- The registers in the order they are popped, under the address of the flags and these. -/
def saved_words (d : Cpu) : List (BitVec 32) :=
  [Reg.ebx, .ecx, .edx, .esi, .edi, .ebp].map d.reg ++ [d.reg .esp - 4, flag_image d.eflags]

theorem onStack_saved {m : Memory} {d : Cpu} {ws : List (BitVec 32)} {n : ℕ}
    (h : OnStack K m d ws (n + 32)) : OnStack K m (saved d) (saved_words d ++ ws) n := by
  have hp := h.push (flag_image d.eflags)
  have hq := onStack_pushes [.ebp, .edi, .esi, .edx, .ecx, .ebx] (n := n) (by decide)
    (hp.push ((d.push (flag_image d.eflags)).reg .esp))
  have hreg : ∀ r, r ≠ .esp → ((d.push (flag_image d.eflags)).push
      ((d.push (flag_image d.eflags)).reg .esp)).reg r = d.reg r := fun r hr =>
    (Cpu.push_reg_ne _ _ hr).trans (Cpu.push_reg_ne _ _ hr)
  rw [List.map_congr_left (g := d.reg) fun r hr => hreg r (by rintro rfl; exact absurd hr (by decide)),
    Cpu.push_esp] at hq
  exact hq

theorem saved_kept (d : Cpu) : SameControl d (saved d) ∧
    (∀ r, r ≠ .esp → (saved d).reg r = d.reg r) ∧ (saved d).reg .esp + 32 = d.reg .esp := by
  unfold saved
  obtain ⟨hcontrol, hreg, hesp⟩ := pushes_kept ((d.push (flag_image d.eflags)).push
    ((d.push (flag_image d.eflags)).reg .esp)) [.ebp, .edi, .esi, .edx, .ecx, .ebx]
  refine ⟨⟨hcontrol.eip, hcontrol.cs, hcontrol.ss, hcontrol.eflags⟩, fun r hr => ?_, ?_⟩
  · exact (hreg r hr).trans ((Cpu.push_reg_ne _ _ hr).trans (Cpu.push_reg_ne _ _ hr))
  · rw [Cpu.push_esp (d.push (flag_image d.eflags)), BitVec.eq_sub_iff_add_eq, Cpu.push_esp d,
      BitVec.eq_sub_iff_add_eq, BitVec.add_assoc, BitVec.add_assoc] at hesp
    exact hesp

/-- The table has a function for every number from 1 to `NUM_SYS_CALLS`. -/
theorem called_none {number : BitVec 32} (h : called number = none) :
    ¬ (0 < number.toInt ∧ number.toInt ≤ NUM_SYS_CALLS.toInt) := by
  rintro ⟨hpos, hmax⟩
  unfold called at h
  rw [if_pos ⟨hpos, hmax⟩] at h
  have hten : NUM_SYS_CALLS.toInt = 10 := rfl
  have hnat : number.toInt = number.toNat := by
    have hword : (2 ^ 32 : ℕ) = 4294967296 := rfl
    have hlt := number.isLt
    rw [BitVec.toInt_eq_toNat_cond] at hpos hmax ⊢
    split at hpos <;> omega
  have hrange : 0 < number.toNat ∧ number.toNat ≤ 10 := by omega
  generalize number.toNat = i at h hrange
  obtain ⟨h0, h10⟩ := hrange
  interval_cases i <;> cases h

/-- **The two comparisons are the range check.** -/
theorem linkage_checks (env : Context LinkedFunction) (d : Cpu) : ∃ flags,
    exec env none system_call_linkage d
      = if 0 < (d.reg .eax).toInt ∧ (d.reg .eax).toInt ≤ NUM_SYS_CALLS.toInt then
          exec env none (system_call_linkage.drop 12) { saved d with eflags := flags }
        else exec env none finished_lines ({ saved d with eflags := flags }.set .eax (-1)) := by
  rw [← (saved_kept d).2.1 .eax (by decide)]
  generalize hq : saved d = q
  have hlow : exec env none system_call_linkage d = exec env
      (if less_or_equal (cmp_flags (q.reg .eax) 0 q.eflags) then some .invalid_number else none)
      (system_call_linkage.drop 10) { q with eflags := cmp_flags (q.reg .eax) 0 q.eflags } := by
    rw [← hq]
    rfl
  rw [hlow, less_or_equal_cmp]
  generalize cmp_flags (q.reg .eax) 0 q.eflags = flags
  by_cases hzero : (q.reg .eax).toInt ≤ (0 : BitVec 32).toInt
  · refine ⟨flags, ?_⟩
    rw [decide_eq_true hzero, if_pos rfl, if_neg fun h => not_le.mpr h.1 hzero]
    rfl
  · have hhigh : exec env none (system_call_linkage.drop 10) { q with eflags := flags } = exec env
        (if less_or_equal (cmp_flags (q.reg .eax) NUM_SYS_CALLS flags) then none
          else some .invalid_number)
        (system_call_linkage.drop 12)
        { q with eflags := cmp_flags (q.reg .eax) NUM_SYS_CALLS flags } := rfl
    refine ⟨cmp_flags (q.reg .eax) NUM_SYS_CALLS flags, ?_⟩
    rw [decide_eq_false hzero, if_neg (by decide), hhigh, less_or_equal_cmp]
    by_cases hmax : (q.reg .eax).toInt ≤ NUM_SYS_CALLS.toInt
    · rw [decide_eq_true hmax, if_pos rfl, if_pos ⟨not_le.mp hzero, hmax⟩]
    · rw [decide_eq_false hmax, if_neg (by decide), if_neg fun h => hmax h.2]
      rfl

theorem linkage_refuses (env : Context LinkedFunction) {d : Cpu} (h : called (d.reg .eax) = none) :
    ∃ flags, exec env none system_call_linkage d
      = exec env none finished_lines ({ saved d with eflags := flags }.set .eax (-1)) := by
  obtain ⟨flags, hexec⟩ := linkage_checks env d
  rw [if_neg (called_none h)] at hexec
  exact ⟨flags, hexec⟩

theorem linkage_calls (env : Context LinkedFunction) {d : Cpu} {f : LinkedFunction}
    (h : called (d.reg .eax) = some f) : ∃ flags,
      let p := { saved d with eflags := flags }.pushes [.edx, .ecx, .ebx]
      exec env none system_call_linkage d
        = (back_at (env.address 14) (env.call f (p.push (env.address 14)))).bind fun r =>
          exec env none finished_lines
            { r.set .esp (r.reg .esp + 12) with eflags := add_flags (r.reg .esp) 12 r.eflags } := by
  unfold called at h
  split at h
  case isFalse => cases h
  case isTrue hrange =>
  obtain ⟨flags, hexec⟩ := linkage_checks env d
  refine ⟨flags, ?_⟩
  rw [hexec, if_pos hrange]
  generalize hp : { saved d with eflags := flags }.pushes [.edx, .ecx, .ebx] = p
  have hnumber : p.reg .eax = d.reg .eax := by
    rw [← hp]
    exact ((pushes_kept _ _).2.1 .eax (by decide)).trans ((saved_kept d).2.1 .eax (by decide))
  have htable : exec env none (system_call_linkage.drop 12) { saved d with eflags := flags }
      = (sys_call_table[(p.reg .eax).toNat]?.join).bind fun f =>
        (back_at (env.address 14) (env.call f (p.push (env.address 14)))).bind fun r =>
          exec env none finished_lines
            { r.set .esp (r.reg .esp + 12) with eflags := add_flags (r.reg .esp) 12 r.eflags } := by
    rw [← hp]
    rfl
  rw [htable, hnumber, h, Option.bind_some]

/-- From `finished` on everything that the linkage has saved comes back, and `%eax` stays. -/
theorem finished_returns (env : Context LinkedFunction) {k : Cpu} {v : Reg → BitVec 32}
    {flags : BitVec 32} {n : ℕ} (h : OnStack K s.mem k ([Reg.ebx, .ecx, .edx, .esi, .edi, .ebp].map v ++
      (k.reg .esp + 28) :: flags :: frame s) n) (hcpl : k.cpl = 0)
    (hsame : s.cpl = 0 → k.ss = s.ss ∧ k.reg .esp + 44 = s.reg .esp)
    (hv : ∀ r, r ≠ .eax → r ≠ .esp → v r = s.reg r) :
    ∃ s', exec env none finished_lines k = some s' ∧ Unnoticed K (s.set .eax (k.reg .eax)) s' := by
  obtain ⟨hpop, hcontrol, hmem, hreg, hesp⟩ := onStack_pops (by decide) (by decide) h
  have hexec : exec env none finished_lines k
      = exec env none ([.popl .esp, .popfl, .iret] : List (Line LinkedFunction LinkLabel))
        (k.pops [.ebx, .ecx, .edx, .esi, .edi, .ebp]) := rfl
  rw [hexec]
  generalize k.pops [.ebx, .ecx, .edx, .esi, .edi, .ebp] = j at hpop hcontrol hmem hreg hesp ⊢
  -- the stack pointer that was saved is that of the flags
  obtain ⟨htop, hflags⟩ := OnStack.pop hpop
  have hj : (j.pop_to .esp).reg .esp = j.pop.reg .esp := by
    refine (Cpu.set_reg_self _ _ _).trans ?_
    rw [htop, Cpu.pop_esp, hesp, BitVec.add_assoc]
    rfl
  have hframe := (hflags.congr (j.pop_to .esp) hj rfl).popfl
  have hreg' : ∀ r, r ≠ .esp → (j.pop_to .esp).popfl.reg r = j.reg r := fun r hr =>
    (Cpu.pop_reg_ne _ hr).trans ((Cpu.set_reg_ne _ _ hr).trans (Cpu.pop_reg_ne _ hr))
  have hesp' : (j.pop_to .esp).popfl.reg .esp + 12 = k.reg .esp + 44 := by
    rw [Cpu.popfl_reg, Cpu.pop_esp, hj, Cpu.pop_esp, hesp, BitVec.add_assoc, BitVec.add_assoc,
      BitVec.add_assoc]
    rfl
  have hcpl' : (j.pop_to .esp).popfl.cpl = 0 := by
    refine Eq.trans ?_ hcpl
    exact congrArg (BitVec.setWidth 2) hcontrol.cs
  have hres := resumes_iret hframe hcpl' fun hs =>
    ⟨hcontrol.ss.trans (hsame hs).1, hesp'.trans (hsame hs).2⟩
  refine ⟨_, rfl, fun r => ?_, ⟨hres.eip, hres.cs, hres.ss, hres.eflags⟩, fun a ha => ?_⟩
  · by_cases hr : r = .esp
    · rw [hr, Cpu.set_reg_ne _ _ (by decide)]
      exact hres.esp
    · refine (hres.reg r hr).trans ((hreg' r hr).trans ((hreg r hr).trans ?_))
      by_cases hr' : r = .eax
      · rw [hr', Cpu.set_reg_self, if_neg (by decide)]
      · rw [Cpu.set_reg_ne _ _ hr', if_pos, hv r hr' hr]
        cases r with
        | eax | esp => contradiction
        | ecx | edx | ebx | ebp | esi | edi => decide
  · exact (congrFun hres.mem a).trans (hframe.kept a ha)

/-- The function of a system call, where it is entered: its arguments are behind the return
address, and all but the 68 bytes that the linkage has used is as the caller left it. -/
structure EnteredWith (g : Entry) (s e : Cpu) : Prop where
  arguments : Words e.mem (e.reg .esp + 4) [s.reg .ebx, s.reg .ecx, s.reg .edx]
  esp : e.reg .esp + 48 = entry_esp g s - BitVec.ofNat 32 (frame_size s)
  mem : ∀ a, ClearOf (entry_esp g s) 68 a → e.mem a = s.mem a

/-- What a system call leaves in `%eax`. -/
def Answers (call : LinkedFunction → Cpu → Cpu) (g : Entry) (s : Cpu) (result : BitVec 32) : Prop :=
  match called (s.reg .eax) with
  | none => result = -1
  | some f => ∃ e, EnteredWith g s e ∧ result = (call f e).reg .eax

/-- **A system call** gives its function the arguments of the caller, and the caller its result.
Nothing else changes for the caller. -/
theorem system_call_returns {call : LinkedFunction → Cpu → Cpu} (address : ℕ → BitVec 32)
    (hg : g.cs.setWidth 2 = 0)
    (hroom : ∀ a, K a → ClearOf (entry_esp g s) 68 a)
    (hcall : ∀ f e, called (s.reg .eax) = some f → EnteredWith g s e →
      Returns K 3 (8 + (frame s).length) (call f) e) :
    ∃ s' result, exec (kernel_context call address) none system_call_linkage (s.deliver g false)
      = some s' ∧ Answers call g s result ∧ Unnoticed K (s.set .eax result) s' := by
  have hsize : frame_size s ≤ 20 := by
    unfold frame_size
    split <;> decide
  have hstack : ∀ K' : BitVec 32 → Prop,
      (∀ a, K' a → ClearOf (entry_esp g s) 68 a) →
      OnStack K' s.mem (saved (s.deliver g false)) (saved_words (s.deliver g false) ++ frame s) 16 :=
    fun K' hK' => onStack_saved (onStack_deliver (n := 48) false
      (fun a ha i hi hin => hK' a ha i hi (by omega)) (by omega)).1
  obtain ⟨hdreg, hdcs, hdss⟩ := deliver_kept g false s
  have hdesp := (onStack_deliver (K := fun _ => False) (n := 48) (g := g) (s := s) false
    (fun _ h => h.elim) (by omega)).2
  generalize s.deliver g false = d at hstack hdreg hdcs hdss hdesp ⊢
  obtain ⟨hqc, hqreg, hqesp⟩ := saved_kept d
  have hnumber : d.reg .eax = s.reg .eax := hdreg .eax (by decide)
  have hfinish : ∀ k n, OnStack K s.mem k (saved_words d ++ frame s) n →
      k.reg .esp = (saved d).reg .esp → k.cs = d.cs → k.ss = d.ss →
      ∃ s', exec (kernel_context call address) none finished_lines k = some s' ∧
        Unnoticed K (s.set .eax (k.reg .eax)) s' := by
    intro k n hk hkesp hkcs hkss
    have hflags : d.reg .esp - 4 = k.reg .esp + 28 := by
      rw [hkesp, ← hqesp, BitVec.sub_eq_iff_eq_add, BitVec.add_assoc]
      rfl
    unfold saved_words at hk
    rw [hflags, List.append_assoc] at hk
    refine finished_returns (v := d.reg) _ hk ?_ (fun hcpl => ?_)
      fun r _ hr => hdreg r hr
    · unfold Cpu.cpl
      rw [hkcs, hdcs, hg]
    · have hstart : entry_esp g s = s.reg .esp := if_pos hcpl
      have hsize' : frame_size s = 12 := if_pos hcpl
      refine ⟨hkss.trans (hdss hcpl), ?_⟩
      have hsum : (44 : BitVec 32) = 32 + 12 := rfl
      rw [hkesp, hsum, ← BitVec.add_assoc, hqesp, hdesp, hstart, hsize']
      exact BitVec.sub_add_cancel _ _
  unfold Answers
  rw [← hnumber] at hcall ⊢
  cases hcalled : called (d.reg .eax) with
  | none =>
      obtain ⟨flags, hexec⟩ := linkage_refuses (kernel_context call address) hcalled
      rw [hexec]
      generalize saved d = q at hstack hqc hfinish ⊢
      have hesp : ({ q with eflags := flags }.set .eax (-1)).reg .esp = q.reg .esp :=
        Cpu.set_reg_ne _ _ (by decide)
      obtain ⟨s', hs', hun⟩ := hfinish ({ q with eflags := flags }.set .eax (-1)) 16
        ((hstack K hroom).congr _ hesp rfl) hesp hqc.cs hqc.ss
      rw [Cpu.set_reg_self] at hun
      exact ⟨s', -1, hs', rfl, hun⟩
  | some f =>
      obtain ⟨flags, hexec⟩ := linkage_calls (kernel_context call address) hcalled
      rw [hexec]
      generalize saved d = q at hstack hqc hqreg hqesp hfinish ⊢
      have hargs : ∀ K' : BitVec 32 → Prop,
          (∀ a, K' a → ClearOf (entry_esp g s) 68 a) →
          OnStack K' s.mem ({ q with eflags := flags }.pushes [.edx, .ecx, .ebx])
            ([s.reg .ebx, s.reg .ecx, s.reg .edx] ++ (saved_words d ++ frame s)) 4 := by
        intro K' hK'
        have hpush := onStack_pushes [.edx, .ecx, .ebx] (n := 4) (by decide)
          ((hstack K' hK').congr { q with eflags := flags } rfl rfl)
        have hregs : [Reg.edx, .ecx, .ebx].map q.reg = [Reg.edx, .ecx, .ebx].map s.reg := by
          apply List.map_congr_left
          intro r hr
          have hr' : r ≠ .esp := by
            rintro rfl
            exact absurd hr (by decide)
          rw [hqreg r hr', hdreg r hr']
        dsimp only at hpush
        rw [hregs] at hpush
        exact hpush
      obtain ⟨hpc, hpreg, hpesp⟩ := pushes_kept { q with eflags := flags } [.edx, .ecx, .ebx]
      dsimp only
      generalize { q with eflags := flags }.pushes [.edx, .ecx, .ebx] = p
        at hargs hpc hpreg hpesp ⊢
      have hentry : EnteredWith g s (p.push (address 14)) := by
        refine ⟨?_, ?_, fun a ha => ((hargs _ fun a ha => ha).push (address 14)).kept a ha⟩
        · exact ((hargs _ fun a ha => ha).push (address 14)).words.2.take _
        · rw [← hdesp, ← hqesp, Cpu.push_esp]
          have hsum : (48 : BitVec 32) = 4 + 12 + 32 := rfl
          rw [hsum, ← BitVec.add_assoc, ← BitVec.add_assoc, BitVec.sub_add_cancel]
          exact congrArg (· + 32) hpesp
      have hf := hcall f (p.push (address 14)) hcalled hentry
      have hlen : 8 + (frame s).length = (saved_words d ++ frame s).length := by
        rw [List.length_append]
        rfl
      rw [hlen] at hf
      obtain ⟨hback, hresp, hr⟩ :=
        hf.back [s.reg .ebx, s.reg .ecx, s.reg .edx] (hargs K hroom)
      have hrcs : (call f (p.push (address 14))).cs = d.cs := hf.cs.trans (hpc.cs.trans hqc.cs)
      have hrss : (call f (p.push (address 14))).ss = d.ss := hf.ss.trans (hpc.ss.trans hqc.ss)
      have hcomes : back_at ((kernel_context call address).address 14)
          ((kernel_context call address).call f
            (p.push ((kernel_context call address).address 14)))
          = some (call f (p.push (address 14))) := hback
      rw [hcomes, Option.bind_some]
      generalize hrdef : call f (p.push (address 14)) = r at hresp hr hrcs hrss ⊢
      have hkesp : (r.set .esp (r.reg .esp + 12)).reg .esp = p.reg .esp + BitVec.ofNat 32 (4 * 3) := by
        rw [Cpu.set_reg_self, hresp]
        rfl
      obtain ⟨s', hs', hun⟩ := hfinish
        { r.set .esp (r.reg .esp + 12) with eflags := add_flags (r.reg .esp) 12 r.eflags } 0
        (hr.congr _ (hkesp.trans (Cpu.set_reg_self _ _ _).symm) rfl) (hkesp.trans hpesp) hrcs hrss
      have heax : (r.set .esp (r.reg .esp + 12)).reg .eax = r.reg .eax :=
        Cpu.set_reg_ne _ _ (by decide)
      refine ⟨s', r.reg .eax, hs', ⟨_, hentry, ?_⟩, ?_⟩
      · rw [hrdef]
      · rw [← heax]
        exact hun

/-! ## The stubs of the programs -/

/-- The state in which a stub makes its interrupt. -/
def stub_call (number a₁ a₂ a₃ : BitVec 32) (eip : BitVec 32) (s : Cpu) : Cpu :=
  { ((((s.push (s.reg .ebx)).set .eax number).set .ebx a₁).set .ecx a₂).set .edx a₃ with eip := eip }

/-- The four bytes of the register that a stub saves, and the four of its return address. -/
def StubWords (s : Cpu) (a : BitVec 32) : Prop :=
  ∃ i, i < 8 ∧ a = s.reg .esp - 4 + BitVec.ofNat 32 i

/-- **A stub is a C function** of the program that calls it, and its result is that of the system
call with its arguments. -/
theorem stub_returns {call : LinkedFunction → Cpu → Cpu} (kernel_address address : ℕ → BitVec 32)
    {number ra a₁ a₂ a₃ : BitVec 32} (hg : g.cs.setWidth 2 = 0) (huser : s.cpl ≠ 0)
    (hwords : Words s.mem (s.reg .esp) [ra, a₁, a₂, a₃])
    (hfree : ∀ a, K a → ClearOf (s.reg .esp) 4 a)
    (hroom : ∀ a, K a ∨ StubWords s a → ClearOf g.esp0 68 a)
    (hcall : ∀ f e, called number = some f →
      EnteredWith g (stub_call number a₁ a₂ a₃ (address 2) s) e →
      Returns (fun a => K a ∨ StubWords s a) 3 13 (call f) e) :
    ∃ s', exec (user_context call g kernel_address address) none (DO_CALL number) s = some s' ∧
      Cdecl K 0 0 (fun _ => s') s ∧ s'.eflags = s.eflags ∧
      Answers call g (stub_call number a₁ a₂ a₃ (address 2) s) (s'.reg .eax) := by
  have hpesp : (s.push (s.reg .ebx)).reg .esp = s.reg .esp - 4 := Cpu.push_esp _ _
  have hstub : Words (s.push (s.reg .ebx)).mem (s.reg .esp - 4) [s.reg .ebx, ra, a₁, a₂, a₃] :=
    hwords.store (s.reg .ebx) (by norm_num)
  have hexec : exec (user_context call g kernel_address address) none (DO_CALL number) s
      = ((exec (kernel_context call kernel_address) none system_call_linkage
          ((stub_call number a₁ a₂ a₃ (address 2) s).deliver g false)).bind
            (back_at (address 2))).bind
          fun s => some { (s.pop_to .ebx).pop with eip := (s.pop_to .ebx).top } := by
    obtain ⟨-, -, h₁, h₂, h₃, -⟩ := hstub
    rw [BitVec.add_assoc] at h₁
    rw [BitVec.add_assoc, BitVec.add_assoc] at h₂
    rw [BitVec.add_assoc, BitVec.add_assoc, BitVec.add_assoc] at h₃
    rw [← h₁, ← h₂, ← h₃, ← hpesp]
    rfl
  have hentry : entry_esp g (stub_call number a₁ a₂ a₃ (address 2) s) = g.esp0 := if_neg huser
  have hframe : (frame (stub_call number a₁ a₂ a₃ (address 2) s)).length = 5 := by
    unfold frame
    rw [if_neg (show (stub_call number a₁ a₂ a₃ (address 2) s).cpl ≠ 0 from huser)]
    rfl
  have hnumber : (stub_call number a₁ a₂ a₃ (address 2) s).reg .eax = number := rfl
  have hmem : (stub_call number a₁ a₂ a₃ (address 2) s).mem = (s.push (s.reg .ebx)).mem := rfl
  have hesp : (stub_call number a₁ a₂ a₃ (address 2) s).reg .esp = s.reg .esp - 4 := hpesp
  have hregs : ∀ r, r = .ebp ∨ r = .esi ∨ r = .edi →
      (stub_call number a₁ a₂ a₃ (address 2) s).reg r = s.reg r := by
    rintro r (rfl | rfl | rfl) <;> rfl
  have hcontrol : SameControl { s with eip := address 2 } (stub_call number a₁ a₂ a₃ (address 2) s) :=
    ⟨rfl, rfl, rfl, rfl⟩
  rw [hexec]
  generalize stub_call number a₁ a₂ a₃ (address 2) s = u at *
  obtain ⟨s', result, hs', hanswer, hun⟩ := system_call_returns (s := u)
    kernel_address hg (hentry ▸ hroom) (by rwa [hframe, hnumber])
  have hback : back_at (address 2) s' = some s' := if_pos (hun.control.eip.trans hcontrol.eip)
  rw [hs', Option.bind_some, hback, Option.bind_some]
  -- the saved register and the return address are still there
  have hsesp : s'.reg .esp = s.reg .esp - 4 :=
    (hun.reg .esp).trans ((Cpu.set_reg_ne _ _ (by decide)).trans hesp)
  have hstack : OnStack K s'.mem s' [s.reg .ebx, ra] 0 := by
    refine ⟨?_, fun _ _ => rfl, fun _ _ i hi hin => by omega, by norm_num⟩
    rw [hsesp]
    refine (Words.take [s.reg .ebx, ra] hstub).congr fun i hi => ?_
    rw [← hmem]
    exact hun.mem _ (.inr ⟨i, hi, rfl⟩)
  obtain ⟨hebx, hret⟩ := hstack.pop_to (r := .ebx) (by decide)
  have hpop : (s'.pop_to .ebx).reg .esp = s.reg .esp :=
    (Cpu.set_reg_ne _ _ (by decide)).trans (by rw [Cpu.pop_esp, hsesp, BitVec.sub_add_cancel])
  have hreg : ∀ r, r ≠ .ebx → r ≠ .esp → (s'.pop_to .ebx).pop.reg r = (u.set .eax result).reg r := by
    intro r hr hr'
    rw [Cpu.pop_reg_ne _ hr', ← hun.reg]
    exact (Cpu.set_reg_ne _ _ hr).trans (Cpu.pop_reg_ne _ hr')
  refine ⟨_, rfl, ⟨⟨hret.pop.1.trans hwords.1.symm, ?_, hun.control.cs.trans hcontrol.cs,
    hun.control.ss.trans hcontrol.ss, fun a ha => ?_, fun i hi hi' => by omega⟩, ?_⟩,
    hun.control.eflags.trans hcontrol.eflags, ?_⟩
  · exact (Cpu.pop_esp _).trans (congrArg (· + 4) hpop)
  · refine (hun.mem a (.inl ha)).trans ((congrFun hmem a).trans (store32_of_ne fun k hk => ?_))
    rw [sub_four_add hk]
    exact hfree a ha (4 - k) (by omega) (by omega)
  · rintro r (rfl | hr)
    · exact (Cpu.pop_reg_ne _ (by decide)).trans hebx
    · rw [← hregs r hr]
      have hne : r ≠ .ebx ∧ r ≠ .esp ∧ r ≠ .eax := by
        rcases hr with rfl | rfl | rfl <;> decide
      exact (hreg r hne.1 hne.2.1).trans (Cpu.set_reg_ne _ _ hne.2.2)
  · have heax : (s'.pop_to .ebx).pop.reg .eax = result :=
      (hreg .eax (by decide) (by decide)).trans (Cpu.set_reg_self _ _ _)
    dsimp only
    rwa [heax]

theorem stub_returns_demo :
    ∃ s', exec (user_context first_argument first_kernel_stack (BitVec.ofNat 32) (BitVec.ofNat 32))
        none ece391_close closing_program = some s' ∧
      Cdecl (fun a => 0x08400000 ≤ a.toNat) 0 0 (fun _ => s') closing_program ∧
        s'.eflags = closing_program.eflags ∧
          Answers first_argument first_kernel_stack
            (stub_call 6 0 0 0 (BitVec.ofNat 32 2) closing_program) (s'.reg .eax) := by
  have hesp : closing_program.reg .esp = 0x083FFFF0 := rfl
  refine stub_returns _ _ rfl (by decide) ⟨rfl, rfl, rfl, rfl, trivial⟩ (fun a ha => ?_)
    (fun a ha => clearOf_kernel_stack (by decide) ?_)
    fun f e _ _ => (cdecl_first_argument _ _ _ f e).toReturns
  · intro i hi hin heq
    have hnat := congrArg BitVec.toNat heq
    rw [hesp, BitVec.toNat_sub, BitVec.toNat_ofNat] at hnat
    have hbase : (0x083FFFF0 : BitVec 32).toNat = 0x083FFFF0 := rfl
    omega
  · rcases ha with ha | ⟨i, hi, rfl⟩
    · omega
    · rw [hesp, BitVec.toNat_add, BitVec.toNat_ofNat]
      have hbase : ((0x083FFFF0 : BitVec 32) - 4).toNat = 0x083FFFEC := rfl
      omega

end

end LinuxLikeOS
