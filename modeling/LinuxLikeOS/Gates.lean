/-
`idt.c`: the interrupt descriptor table.

Every gate gets its attributes in one loop, and its handler from one of two lists of assignments.
The loop marks one gate more than the lists have exceptions: vector 20 is present, with the offset
that the table had before. Apart from that, what the processor finds at a vector is the handler of
the source for it, and nothing at all elsewhere.
-/
import LinuxLikeOS.BitField
import LinuxLikeOS.CLib

set_option autoImplicit false

namespace LinuxLikeOS

def NUM_VEC : ℕ := 256
def NUM_EXCEPTIONS : ℕ := 20
def SKIP : ℕ := 15
def KERNEL_CS : ℕ := 0x10
def SYSTEM_CALL_VECTOR : ℕ := 0x80
def KEYBOARD : ℕ := 0x21
def RTC : ℕ := 0x28
def PIT : ℕ := 0x20

/-! ## Entries -/

namespace idt_desc

def offset_15_00 : BitField := ⟨0, 16⟩
def seg_selector : BitField := ⟨16, 16⟩
def reserved4 : BitField := ⟨32, 8⟩
def reserved3 : BitField := ⟨40, 1⟩
def reserved2 : BitField := ⟨41, 1⟩
def reserved1 : BitField := ⟨42, 1⟩
def size : BitField := ⟨43, 1⟩
def reserved0 : BitField := ⟨44, 1⟩
def dpl : BitField := ⟨45, 2⟩
def present : BitField := ⟨47, 1⟩
def offset_31_16 : BitField := ⟨48, 16⟩

end idt_desc

open idt_desc

/-- The functions and linkage labels that are entered through the table. -/
inductive IdtHandler
  | divide_error | debug | nmi | breakpoint | overflow | bound_range_exceeded | invalid_opcode
  | device_not_available | double_fault | coprocessor_segment_overrun | invalid_tss
  | segment_not_present | stack_fault | general_protection | page_fault | x87_fp_error
  | alignment_check | machine_check | simd_fp_error
  | system_call_linkage | keyboard_handler_linkage | rtc_handler_linkage | pit_handler_linkage
  deriving DecidableEq

abbrev Idt : Type := ℕ → BitVec 64

/-- The two halves of the handler's address. -/
def SET_IDT_ENTRY (handler : BitVec 32) (str : BitVec 64) : BitVec 64 :=
  offset_15_00.set (handler &&& 0xFFFF).toNat
    (offset_31_16.set ((handler &&& 0xFFFF0000) >>> 16).toNat str)

/-- The loop body of `build_idt`. -/
def init_gate (i : ℕ) (e : BitVec 64) : BitVec 64 :=
  let e := seg_selector.set KERNEL_CS e
  let e := reserved4.set 0 e
  let e := reserved3.set 1 e
  let e := reserved2.set 1 e
  let e := reserved1.set 1 e
  let e := size.set 1 e
  let e := reserved0.set 0 e
  let e := dpl.set 0 e
  let e := present.set 0 e
  let e := if i ≤ NUM_EXCEPTIONS ∧ i ≠ SKIP then present.set 1 e else e
  if i = SYSTEM_CALL_VECTOR then dpl.set 3 (present.set 1 e) else e

/-- The first assignments of handlers: the exceptions and the system call. -/
def exception_entries : List (ℕ × IdtHandler) :=
  [(0, .divide_error), (1, .debug), (2, .nmi), (3, .breakpoint), (4, .overflow),
    (5, .bound_range_exceeded), (6, .invalid_opcode), (7, .device_not_available),
    (8, .double_fault), (9, .coprocessor_segment_overrun), (10, .invalid_tss),
    (11, .segment_not_present), (12, .stack_fault), (13, .general_protection),
    (14, .page_fault), (16, .x87_fp_error), (17, .alignment_check), (18, .machine_check),
    (19, .simd_fp_error), (SYSTEM_CALL_VECTOR, .system_call_linkage)]

/-- The last ones, for the devices. -/
def device_entries : List (ℕ × IdtHandler) :=
  [(KEYBOARD, .keyboard_handler_linkage), (RTC, .rtc_handler_linkage), (PIT, .pit_handler_linkage)]

def set_entries (handlers : IdtHandler → BitVec 32) (entries : List (ℕ × IdtHandler)) (idt : Idt) :
    Idt :=
  entries.foldl (fun idt e => Function.update idt e.1 (SET_IDT_ENTRY (handlers e.2) (idt e.1))) idt

/-- The gate of a device: an interrupt gate that is present. -/
def device_gate (e : BitVec 64) : BitVec 64 := present.set 1 (reserved3.set 0 e)

def build_idt (handlers : IdtHandler → BitVec 32) (idt : Idt) : Idt :=
  let idt := for_loop (fun i idt => Function.update idt i (init_gate i (idt i))) NUM_VEC idt
  let idt := set_entries handlers exception_entries idt
  let idt := Function.update idt RTC (device_gate (idt RTC))
  let idt := Function.update idt KEYBOARD (device_gate (idt KEYBOARD))
  let idt := Function.update idt PIT (device_gate (idt PIT))
  set_entries handlers device_entries idt

/-! ## What the processor finds -/

/-- A gate to code, as the processor reads it. -/
structure Gate where
  handler : BitVec 32
  selector : ℕ
  dpl : ℕ
  /-- Interrupts are off in the handler. -/
  interrupts_off : Bool
  deriving DecidableEq

/-- A present descriptor with the type of a 32-bit interrupt gate or trap gate. -/
def gate (e : BitVec 64) : Option Gate :=
  if present.get e = 1 ∧ reserved0.get e = 0 ∧ size.get e = 1 ∧ reserved1.get e = 1 ∧
      reserved2.get e = 1 then
    some
      { handler := BitVec.ofNat 32 (offset_31_16.get e * 2 ^ 16 + offset_15_00.get e)
        selector := seg_selector.get e
        dpl := idt_desc.dpl.get e
        interrupts_off := reserved3.get e = 0 }
  else none

/-- `int n` in code of privilege level `cpl` goes through gates that are not more privileged. -/
def software_interrupt (idt : Idt) (cpl n : ℕ) : Option (BitVec 32) :=
  (gate (idt n)).bind fun g => if cpl ≤ g.dpl then some g.handler else none

/-- The handler that the source assigns to a vector. -/
def gate_handler (v : ℕ) : Option IdtHandler := (exception_entries ++ device_entries).lookup v

/-! ## The entries of the table -/

section

variable {handlers : IdtHandler → BitVec 32} {idt : Idt} {v : ℕ}

/-- **An address that is stored in two halves is read back.** -/
theorem handler_of_SET_IDT_ENTRY (handler : BitVec 32) (e : BitVec 64) :
    BitVec.ofNat 32 (offset_31_16.get (SET_IDT_ENTRY handler e) * 2 ^ 16
      + offset_15_00.get (SET_IDT_ENTRY handler e)) = handler := by
  have hlow : offset_15_00.get (SET_IDT_ENTRY handler e) = handler.toNat % 2 ^ 16 := by
    have hmask : (0xFFFF : BitVec 32).toNat = 2 ^ 16 - 1 := rfl
    unfold SET_IDT_ENTRY
    rw [BitField.get_set_self _ _ _ (by decide), BitVec.toNat_and, hmask,
      Nat.and_two_pow_sub_one_eq_mod]
    exact Nat.mod_mod _ _
  have hhigh : offset_31_16.get (SET_IDT_ENTRY handler e) = handler.toNat / 2 ^ 16 := by
    have hshift : (handler &&& 0xFFFF0000) >>> 16 = handler >>> 16 := by
      apply BitVec.eq_of_getLsbD_eq
      intro i hi
      have hmask : (0xFFFF0000 : BitVec 32) = ~~~(BitVec.ofNat 32 (2 ^ 16 - 1)) := by decide
      rw [BitVec.getLsbD_ushiftRight, BitVec.getLsbD_ushiftRight, BitVec.getLsbD_and, hmask,
        BitVec.getLsbD_not, BitVec.getLsbD_ofNat, Nat.testBit_two_pow_sub_one]
      by_cases h : 16 + i < 32
      · simp [h]
      · simp [BitVec.getLsbD_of_ge handler (16 + i) (by omega)]
    have hlt : handler.toNat < 2 ^ 32 := handler.isLt
    unfold SET_IDT_ENTRY
    rw [BitField.get_set_of_disjoint (by decide), BitField.get_set_self _ _ _ (by decide), hshift,
      BitVec.toNat_ushiftRight, Nat.shiftRight_eq_div_pow]
    exact Nat.mod_eq_of_lt (by
      show handler.toNat / 2 ^ 16 < 2 ^ 16
      omega)
  rw [hlow, hhigh, Nat.div_add_mod']
  rw [BitVec.ofNat_toNat, BitVec.setWidth_eq]

/-- A handler changes no attribute. -/
theorem get_SET_IDT_ENTRY {f : BitField} (hlow : f.Disjoint offset_15_00)
    (hhigh : f.Disjoint offset_31_16) (handler : BitVec 32) (e : BitVec 64) :
    f.get (SET_IDT_ENTRY handler e) = f.get e := by
  unfold SET_IDT_ENTRY
  rw [BitField.get_set_of_disjoint hlow, BitField.get_set_of_disjoint hhigh]

/-- A list of assignments, to different vectors. -/
theorem set_entries_apply {entries : List (ℕ × IdtHandler)} (hne : (entries.map Prod.fst).Nodup) :
    set_entries handlers entries idt v =
      match entries.lookup v with
      | some h => SET_IDT_ENTRY (handlers h) (idt v)
      | none => idt v := by
  induction entries generalizing idt with
  | nil => rfl
  | cons e entries ih =>
      obtain ⟨n, h⟩ := e
      rw [List.map_cons, List.nodup_cons] at hne
      have hcons : set_entries handlers ((n, h) :: entries) idt
          = set_entries handlers entries
              (Function.update idt n (SET_IDT_ENTRY (handlers h) (idt n))) := rfl
      rw [hcons, ih hne.2, List.lookup_cons]
      by_cases hv : v = n
      · subst hv
        -- the vector does not come again
        have hnone : entries.lookup v = none := by
          rw [List.lookup_eq_none_iff]
          intro p hp
          have hmem : p.1 ∈ entries.map Prod.fst := List.mem_map_of_mem hp
          have hno : v ∉ entries.map Prod.fst := hne.1
          apply bne_iff_ne.mpr
          intro heq
          exact hno (heq ▸ hmem)
        rw [hnone]
        simp
      · have hbeq : (v == n) = false := beq_false_of_ne hv
        rw [hbeq, Function.update_of_ne hv]

/-- The loop, at any vector. -/
theorem init_loop_apply (hv : v < NUM_VEC) :
    for_loop (fun i idt => Function.update idt i (init_gate i (idt i))) NUM_VEC idt v
      = init_gate v (idt v) := by
  have hinv : ∀ v, for_loop (fun i (idt : Idt) => Function.update idt i (init_gate i (idt i))) NUM_VEC
      idt v = if v < NUM_VEC then init_gate v (idt v) else idt v := by
    apply for_loop_invariant fun n (idt' : Idt) => ∀ v, idt' v = if v < n then init_gate v (idt v) else idt v
    · exact fun v => (if_neg (Nat.not_lt_zero v)).symm
    intro n idt' _ h v
    rw [Function.update_apply]
    by_cases hn : v = n
    · subst hn
      rw [if_pos rfl, if_pos (Nat.lt_succ_self v), h v, if_neg (Nat.lt_irrefl v)]
    · have hlt : v < n + 1 ↔ v < n := by omega
      rw [if_neg hn, h v]
      simp only [hlt]
  rw [hinv v, if_pos hv]

/-! ## Attributes -/

/-- What a descriptor has beside the address of its handler. -/
structure Attributes where
  present : ℕ
  reserved0 : ℕ
  size : ℕ
  reserved1 : ℕ
  reserved2 : ℕ
  reserved3 : ℕ
  seg_selector : ℕ
  dpl : ℕ

def attributes (e : BitVec 64) : Attributes where
  present := idt_desc.present.get e
  reserved0 := idt_desc.reserved0.get e
  size := idt_desc.size.get e
  reserved1 := idt_desc.reserved1.get e
  reserved2 := idt_desc.reserved2.get e
  reserved3 := idt_desc.reserved3.get e
  seg_selector := idt_desc.seg_selector.get e
  dpl := idt_desc.dpl.get e

theorem attributes_SET_IDT_ENTRY (handler : BitVec 32) (e : BitVec 64) :
    attributes (SET_IDT_ENTRY handler e) = attributes e := by
  unfold attributes
  simp (disch := decide) only [get_SET_IDT_ENTRY]

theorem attributes_init_gate (i : ℕ) (e : BitVec 64) :
    attributes (init_gate i e) =
      { present := if (i ≤ NUM_EXCEPTIONS ∧ i ≠ SKIP) ∨ i = SYSTEM_CALL_VECTOR then 1 else 0
        reserved0 := 0, size := 1, reserved1 := 1, reserved2 := 1, reserved3 := 1
        seg_selector := KERNEL_CS, dpl := if i = SYSTEM_CALL_VECTOR then 3 else 0 } := by
  unfold attributes init_gate
  -- the conditions are decided first, so that the vector is not replaced in them
  by_cases h₁ : i ≤ NUM_EXCEPTIONS ∧ i ≠ SKIP
  · by_cases h₂ : i = SYSTEM_CALL_VECTOR
    · simp (disch := decide) only [eq_true h₁, eq_true h₂, if_true, or_true,
        BitField.get_set_self, BitField.get_set_of_disjoint]
      rfl
    · simp (disch := decide) only [eq_true h₁, eq_false h₂, if_true, if_false, or_false,
        BitField.get_set_self, BitField.get_set_of_disjoint]
      rfl
  · by_cases h₂ : i = SYSTEM_CALL_VECTOR
    · simp (disch := decide) only [eq_false h₁, eq_true h₂, if_true, if_false, or_true,
        BitField.get_set_self, BitField.get_set_of_disjoint]
      rfl
    · simp (disch := decide) only [eq_false h₁, eq_false h₂, if_false, or_false,
        BitField.get_set_self, BitField.get_set_of_disjoint]
      rfl

theorem attributes_device_gate (e : BitVec 64) :
    attributes (device_gate e) = { attributes e with present := 1, reserved3 := 0 } := by
  unfold attributes device_gate
  simp (disch := decide) only [BitField.get_set_self, BitField.get_set_of_disjoint]
  rfl

/-- The address in a descriptor. -/
def gate_offset (e : BitVec 64) : BitVec 32 :=
  BitVec.ofNat 32 (offset_31_16.get e * 2 ^ 16 + offset_15_00.get e)

/-- The gate of a descriptor with the attributes that the table uses. -/
theorem gate_of_attributes {e : BitVec 64} {there off : ℕ} {level : ℕ}
    (h : attributes e = ⟨there, 0, 1, 1, 1, off, KERNEL_CS, level⟩) :
    gate e = if there = 1 then some ⟨gate_offset e, KERNEL_CS, level, decide (off = 0)⟩ else none := by
  obtain ⟨hpresent, h₀, hsize, h₁, h₂, h₃, hsel, hdpl⟩ := Attributes.mk.inj h
  unfold gate
  simp only [hpresent, h₀, hsize, h₁, h₂, h₃, hsel, hdpl, and_true]
  rfl

/-! ## The whole table -/

/-- The three gates whose handlers begin with interrupts off. -/
def device_vector (v : ℕ) : Prop := v = PIT ∨ v = KEYBOARD ∨ v = RTC

instance (v : ℕ) : Decidable (device_vector v) := inferInstanceAs (Decidable (_ ∨ _))

/-- An entry of the finished table: the loop, the handlers, and what the devices change. -/
theorem build_idt_apply (hv : v < NUM_VEC) :
    build_idt handlers idt v =
      match device_entries.lookup v with
      | some h => SET_IDT_ENTRY (handlers h) (device_gate (init_gate v (idt v)))
      | none =>
          match exception_entries.lookup v with
          | some h => SET_IDT_ENTRY (handlers h) (init_gate v (idt v))
          | none => init_gate v (idt v) := by
  have hdevice : ∀ idt : Idt, Function.update (Function.update (Function.update idt RTC
      (device_gate (idt RTC))) KEYBOARD (device_gate ((Function.update idt RTC
      (device_gate (idt RTC))) KEYBOARD))) PIT (device_gate ((Function.update (Function.update idt RTC
      (device_gate (idt RTC))) KEYBOARD (device_gate ((Function.update idt RTC
      (device_gate (idt RTC))) KEYBOARD))) PIT)) v
      = if device_vector v then device_gate (idt v) else idt v := by
    intro idt
    unfold device_vector
    simp only [Function.update_apply]
    by_cases h₁ : v = PIT
    · subst h₁
      simp [show PIT ≠ KEYBOARD by decide, show PIT ≠ RTC by decide]
    · by_cases h₂ : v = KEYBOARD
      · subst h₂
        simp [h₁, show KEYBOARD ≠ RTC by decide]
      · by_cases h₃ : v = RTC
        · subst h₃
          simp [h₁, h₂]
        · simp [h₁, h₂, h₃]
  have hlookup : ∀ v : Fin 256, ((device_entries.lookup v.val).isSome = decide (device_vector v.val)) ∧
      (device_vector v.val → exception_entries.lookup v.val = none) := by decide +kernel
  obtain ⟨hsome, hnone⟩ := hlookup ⟨v, hv⟩
  dsimp only at hsome hnone
  unfold build_idt
  rw [set_entries_apply (by decide), hdevice, set_entries_apply (by decide), init_loop_apply hv]
  cases hdev : device_entries.lookup v with
  | some h =>
      rw [hdev] at hsome
      have hvec := of_decide_eq_true hsome.symm
      rw [if_pos hvec, hnone hvec]
  | none =>
      rw [hdev] at hsome
      rw [if_neg (of_decide_eq_false hsome.symm)]

/-- The gate at a vector: that of its handler, behind which interrupts are off for the devices. -/
theorem gate_build_idt (handlers : IdtHandler → BitVec 32) (idt : Idt) (hv : v < NUM_VEC) :
    gate (build_idt handlers idt v) =
      match gate_handler v with
      | some h => some ⟨handlers h, KERNEL_CS, if v = SYSTEM_CALL_VECTOR then 3 else 0,
          decide (device_vector v)⟩
      | none => if v = NUM_EXCEPTIONS then some ⟨gate_offset (idt v), KERNEL_CS, 0, false⟩ else none := by
  have hfacts : ∀ v : Fin 256,
      ((device_entries.lookup v.val).isSome = decide (device_vector v.val)) ∧
      ((exception_entries.lookup v.val).isSome = true →
        ((v.val ≤ NUM_EXCEPTIONS ∧ v.val ≠ SKIP) ∨ v.val = SYSTEM_CALL_VECTOR) ∧
          ¬ device_vector v.val) ∧
      (device_vector v.val → ¬ v.val = SYSTEM_CALL_VECTOR) ∧
      ((exception_entries.lookup v.val).isSome = false →
        (((v.val ≤ NUM_EXCEPTIONS ∧ v.val ≠ SKIP) ∨ v.val = SYSTEM_CALL_VECTOR) ↔
          v.val = NUM_EXCEPTIONS) ∧ ¬ v.val = SYSTEM_CALL_VECTOR) := by
    decide +kernel
  obtain ⟨hdevice, hexception, hcall, hother⟩ := hfacts ⟨v, hv⟩
  dsimp only at hdevice hexception hcall hother
  have hhandler : gate_handler v = (exception_entries.lookup v).or (device_entries.lookup v) :=
    List.lookup_append
  have hoffset : ∀ h e, gate_offset (SET_IDT_ENTRY h e) = h := handler_of_SET_IDT_ENTRY
  rw [build_idt_apply hv, hhandler]
  cases hdev : device_entries.lookup v with
  | some h =>
      rw [hdev] at hdevice
      have hvec := of_decide_eq_true hdevice.symm
      have hnone : exception_entries.lookup v = none := by
        cases hexc : exception_entries.lookup v with
        | none => rfl
        | some h' =>
            rw [hexc] at hexception
            exact absurd hvec (hexception rfl).2
      have hattr : attributes (SET_IDT_ENTRY (handlers h) (device_gate (init_gate v (idt v))))
          = ⟨1, 0, 1, 1, 1, 0, KERNEL_CS, 0⟩ := by
        rw [attributes_SET_IDT_ENTRY, attributes_device_gate, attributes_init_gate, if_neg (hcall hvec)]
      rw [hnone]
      dsimp only [Option.or]
      rw [gate_of_attributes hattr, if_pos rfl, hoffset, if_neg (hcall hvec), decide_eq_true hvec]
      rfl
  | none =>
      rw [hdev] at hdevice
      have hvec := of_decide_eq_false hdevice.symm
      cases hexc : exception_entries.lookup v with
      | some h =>
          rw [hexc] at hexception
          have hattr : attributes (SET_IDT_ENTRY (handlers h) (init_gate v (idt v)))
              = ⟨1, 0, 1, 1, 1, 1, KERNEL_CS, if v = SYSTEM_CALL_VECTOR then 3 else 0⟩ := by
            rw [attributes_SET_IDT_ENTRY, attributes_init_gate, if_pos (hexception rfl).1]
          dsimp only [Option.or]
          rw [gate_of_attributes hattr, if_pos rfl, hoffset, decide_eq_false hvec]
          rfl
      | none =>
          rw [hexc] at hother
          obtain ⟨hpresent, hnotcall⟩ := hother rfl
          dsimp only [Option.or]
          have hattr := attributes_init_gate v (idt v)
          rw [if_neg hnotcall] at hattr
          rw [gate_of_attributes hattr]
          by_cases hlast : v = NUM_EXCEPTIONS
          · have hkept : gate_offset (init_gate v (idt v)) = gate_offset (idt v) := by
              subst hlast
              unfold gate_offset init_gate
              simp (disch := decide) only [show NUM_EXCEPTIONS ≤ NUM_EXCEPTIONS ∧
                NUM_EXCEPTIONS ≠ SKIP by decide, show ¬ NUM_EXCEPTIONS = SYSTEM_CALL_VECTOR by decide,
                if_true, if_false, BitField.get_set_of_disjoint, ne_eq, not_false_eq_true, and_self]
            rw [if_pos (hpresent.mpr hlast), if_pos rfl, if_pos hlast, hkept]
            rfl
          · rw [if_neg (mt hpresent.mp hlast), if_neg (by decide), if_neg hlast]

/-- **Every vector of the table.** A vector with a handler in the source has a gate to it, which
only the system call's opens to user code, and behind which interrupts are off for the devices.
There is one more gate, at vector 20, that has the address the table held before; nothing else is
there. So user code enters the kernel by the system call and by no other vector. -/
theorem interrupt_table (handlers : IdtHandler → BitVec 32) (idt : Idt) (hv : v < NUM_VEC) :
    gate (build_idt handlers idt v) =
      (match gate_handler v with
      | some h => some ⟨handlers h, KERNEL_CS, if v = SYSTEM_CALL_VECTOR then 3 else 0,
          decide (device_vector v)⟩
      | none =>
          if v = NUM_EXCEPTIONS then some ⟨gate_offset (idt v), KERNEL_CS, 0, false⟩ else none) ∧
    software_interrupt (build_idt handlers idt) 3 v
      = if v = SYSTEM_CALL_VECTOR then some (handlers .system_call_linkage) else none := by
  have hgate := gate_build_idt handlers idt hv
  refine ⟨hgate, ?_⟩
  have hcall : gate_handler SYSTEM_CALL_VECTOR = some .system_call_linkage := by decide
  unfold software_interrupt
  rw [hgate]
  by_cases hsys : v = SYSTEM_CALL_VECTOR
  · subst hsys
    rw [hcall]
    rfl
  · cases gate_handler v with
    | some h => simp [hsys]
    | none =>
        by_cases hlast : v = NUM_EXCEPTIONS
        · subst hlast
          rfl
        · simp [hsys, hlast]

/-- Vector 20 is there, and is not entered from user code. -/
theorem interrupt_table_demo :
    gate (build_idt (fun _ => 0x400000) (fun _ => 0) 20) = some ⟨0, 0x10, 0, false⟩ ∧
      software_interrupt (build_idt (fun _ => 0x400000) (fun _ => 0)) 3 20 = none := by
  have hgate := interrupt_table (v := 20) (fun _ => 0x400000) (fun _ => 0) (by decide)
  have hnone : gate_handler 20 = none := by decide
  rw [hnone] at hgate
  exact hgate

end

end LinuxLikeOS
