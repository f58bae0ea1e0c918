/-
Two cascaded 8259A interrupt controllers.

A chip has a register of requests, one of the interrupts in service and one of masks. It is set up
with a sequence of initialization words, during which the meaning of the next byte depends on how
far the sequence has got. A request is passed on when it is not masked and nothing of the same or a
higher priority is in service; line 0 has the highest. The second chip is on line 2 of the first.

What a program relies on is said with a list beside the chips, of the interrupts that have been
accepted and not been ended: `Served`. An interrupt in it is not accepted a second time, and the
two commands that end it take it out and nothing else.
-/
import Mathlib.Data.BitVec
import Mathlib.Data.List.Basic
import Mathlib.Data.Nat.Notation

set_option autoImplicit false

namespace I8259

/-! ## Bits of a register -/

def set_bit (x : BitVec 8) (i : ℕ) : BitVec 8 := x ||| (1#8 <<< i)

def clear_bit (x : BitVec 8) (i : ℕ) : BitVec 8 := x &&& ~~~(1#8 <<< i)

theorem getLsbD_one_shift {i j : ℕ} (hi : i < 8) : (1#8 <<< i).getLsbD j = decide (j = i) := by
  rw [BitVec.getLsbD_shiftLeft, BitVec.getLsbD_one]
  by_cases hj : j = i
  · subst hj
    simp [hi]
  · by_cases hlt : j < i
    · simp [hlt, hj]
    · have hne : j - i ≠ 0 := by omega
      simp [hne, hj]

theorem getLsbD_set_bit (x : BitVec 8) {i : ℕ} (hi : i < 8) (j : ℕ) :
    (set_bit x i).getLsbD j = (x.getLsbD j || decide (j = i)) := by
  rw [set_bit, BitVec.getLsbD_or, getLsbD_one_shift hi]

theorem getLsbD_clear_bit (x : BitVec 8) {i j : ℕ} (hi : i < 8) (hj : j < 8) :
    (clear_bit x i).getLsbD j = (x.getLsbD j && !decide (j = i)) := by
  rw [clear_bit, BitVec.getLsbD_and, BitVec.getLsbD_not, getLsbD_one_shift hi]
  simp [hj]

/-! ## One chip -/

/-- What the next byte at the odd port is. -/
inductive Stage
  | ready | icw2 | icw3 | icw4
  deriving DecidableEq

structure Chip where
  irr : BitVec 8
  isr : BitVec 8
  imr : BitVec 8
  /-- The vector of line 0. -/
  base : BitVec 8
  stage : Stage
  needs_icw4 : Bool
  auto_eoi : Bool
  deriving DecidableEq

namespace Chip

/-- A line is requested and not masked, and what is in service has lower priority. -/
def Eligible (c : Chip) (i : ℕ) : Prop :=
  c.irr.getLsbD i = true ∧ c.imr.getLsbD i = false ∧ ∀ j ≤ i, c.isr.getLsbD j = false

instance (c : Chip) (i : ℕ) : Decidable (c.Eligible i) := inferInstanceAs (Decidable (_ ∧ _))

/-- The line that is passed on. -/
def request (c : Chip) : Option ℕ := (List.range 8).find? fun i => decide (c.Eligible i)

/-- The line is in service, unless its interrupt is ended by itself. -/
def serve (c : Chip) (i : ℕ) : Chip :=
  { c with irr := clear_bit c.irr i, isr := if c.auto_eoi then c.isr else set_bit c.isr i }

/-- The interrupt of highest priority in service is ended. -/
def end_highest (c : Chip) : Chip :=
  match (List.range 8).find? fun i => c.isr.getLsbD i with
  | some i => { c with isr := clear_bit c.isr i }
  | none => c

/-- A byte at the even port. Bit 4 begins an initialization; otherwise bit 3 selects what is read
there, and the upper bits are a command that ends an interrupt. The commands that rotate the
priorities are not used here and change nothing. -/
def write_command (c : Chip) (v : BitVec 8) : Chip :=
  if v.getLsbD 4 then
    { c with irr := 0, imr := 0, stage := .icw2, needs_icw4 := v.getLsbD 0, auto_eoi := false }
  else if v.getLsbD 3 then c
  else if v >>> 5 = 1 then c.end_highest
  else if v >>> 5 = 3 then { c with isr := clear_bit c.isr (v &&& 7).toNat }
  else c

/-- A byte at the odd port: the words of an initialization, and then the masks. -/
def write_data (c : Chip) (v : BitVec 8) : Chip :=
  match c.stage with
  | .icw2 => { c with base := v &&& 0xF8, stage := .icw3 }
  | .icw3 => { c with stage := if c.needs_icw4 then .icw4 else .ready }
  | .icw4 => { c with auto_eoi := v.getLsbD 1, stage := .ready }
  | .ready => { c with imr := v }

/-- The odd port is read back as the masks. -/
def read_data (c : Chip) : BitVec 8 := c.imr

variable {c : Chip} {i : ℕ}

theorem write_data_of_ready (h : c.stage = .ready) (v : BitVec 8) :
    c.write_data v = { c with imr := v } := by
  simp only [write_data, h]

/-- **An initialization** leaves nothing of what the chip had been told before. -/
theorem set_up (c : Chip) {icw1 : BitVec 8} (hbegin : icw1.getLsbD 4 = true)
    (hicw4 : icw1.getLsbD 0 = true) (icw2 icw3 icw4 ocw1 : BitVec 8) :
    ((((c.write_command icw1).write_data icw2).write_data icw3).write_data icw4).write_data ocw1
      = { irr := 0, isr := c.isr, imr := ocw1, base := icw2 &&& 0xF8, stage := .ready
          needs_icw4 := true, auto_eoi := icw4.getLsbD 1 } := by
  simp only [write_command, write_data, hbegin, hicw4, if_true]

/-- The command that ends the interrupt of one line. -/
theorem specific_eoi (c : Chip) {v : BitVec 8} {i : ℕ} (hocw2 : v.getLsbD 4 = false ∧ v.getLsbD 3 = false)
    (hop : v >>> 5 = 3) (hi : (v &&& 7).toNat = i) :
    c.write_command v = { c with isr := clear_bit c.isr i } := by
  have hne : ¬ v >>> 5 = 1 := by
    rw [hop]
    decide
  unfold write_command
  rw [hocw2.1, hocw2.2, if_neg Bool.false_ne_true, if_neg Bool.false_ne_true, if_neg hne, if_pos hop,
    hi]

theorem request_eq_some (h : c.request = some i) : i < 8 ∧ c.Eligible i := by
  unfold request at h
  have heligible : decide (c.Eligible i) = true :=
    List.find?_some (p := fun i => decide (c.Eligible i)) h
  exact ⟨List.mem_range.mp (List.mem_of_find?_eq_some h), of_decide_eq_true heligible⟩

/-- The line that is passed on has the highest priority. -/
theorem exists_request (hi : i < 8) (h : c.Eligible i) : ∃ j, c.request = some j ∧ j ≤ i := by
  have hsome : c.request.isSome = true := by
    unfold request
    rw [List.find?_isSome]
    exact ⟨i, List.mem_range.mpr hi, decide_eq_true h⟩
  obtain ⟨j, hj⟩ := Option.isSome_iff_exists.mp hsome
  refine ⟨j, hj, ?_⟩
  by_contra hlt
  -- what comes before the first eligible line is not eligible
  unfold request at hj
  obtain ⟨-, as, bs, hsplit, hbefore⟩ := List.find?_eq_some_iff_append.mp hj
  have hmem : i ∈ as := by
    have hlen : j = as.length := by
      have hat : (List.range 8)[as.length]? = some j := by
        rw [hsplit, List.getElem?_append_right (Nat.le_refl _), Nat.sub_self]
        rfl
      obtain ⟨hl, hval⟩ := List.getElem?_eq_some_iff.mp hat
      rw [List.getElem_range] at hval
      exact hval.symm
    have hat : (List.range 8)[i]? = some i := by
      rw [List.getElem?_range hi]
    rw [hsplit, List.getElem?_append_left (by omega)] at hat
    exact List.mem_of_getElem? hat
  have hno := hbefore i hmem
  rw [decide_eq_true h] at hno
  cases hno

end Chip

/-! ## The cascade -/

/-- The line of the first chip that the second one is on. -/
def CASCADE : ℕ := 2

structure Pair where
  master : Chip
  slave : Chip
  deriving DecidableEq

namespace Pair

/-- The first chip with the line of the second one. -/
def lines (p : Pair) : Chip :=
  { p.master with
    irr := if p.slave.request.isSome then set_bit p.master.irr CASCADE
      else clear_bit p.master.irr CASCADE }

/-- A device requests an interrupt: lines 0 to 7 are those of the first chip. -/
def raise (p : Pair) (irq : ℕ) : Pair :=
  if irq < 8 then { p with master := { p.master with irr := set_bit p.master.irr irq } }
  else { p with slave := { p.slave with irr := set_bit p.slave.irr (irq - 8) } }

/-- The processor accepts an interrupt: its vector, its number and the chips after that. -/
def accept (p : Pair) : Option (BitVec 8 × ℕ × Pair) :=
  if p.master.stage ≠ .ready ∨ p.slave.stage ≠ .ready then none
  else
    match p.lines.request with
    | none => none
    | some i =>
        if i = CASCADE then
          match p.slave.request with
          | none => none
          | some j =>
              some (p.slave.base + BitVec.ofNat 8 j, 8 + j,
                { master := p.master.serve CASCADE, slave := p.slave.serve j })
        else some (p.master.base + BitVec.ofNat 8 i, i, { p with master := p.master.serve i })

/-- The end of an interrupt: one of the second chip is ended on both. -/
def finish (p : Pair) (irq : ℕ) : Pair :=
  if irq < 8 then { p with master := { p.master with isr := clear_bit p.master.isr irq } }
  else
    { master := { p.master with isr := clear_bit p.master.isr CASCADE }
      slave := { p.slave with isr := clear_bit p.slave.isr (irq - 8) } }

/-- Both chips have been set up, and interrupts have to be ended. -/
structure Ready (p : Pair) : Prop where
  master : p.master.stage = .ready
  slave : p.slave.stage = .ready
  master_eoi : p.master.auto_eoi = false
  slave_eoi : p.slave.auto_eoi = false

/-- The interrupts in service are those of the list, each of them once, and one of the second chip
at most. -/
structure Served (p : Pair) (serving : List ℕ) : Prop where
  nodup : serving.Nodup
  numbers : ∀ i ∈ serving, i < 16 ∧ i ≠ CASCADE
  master : ∀ i < 8, i ≠ CASCADE → (p.master.isr.getLsbD i = true ↔ i ∈ serving)
  cascade : p.master.isr.getLsbD CASCADE = true ↔ ∃ j ∈ serving, 8 ≤ j
  slave : ∀ j < 8, (p.slave.isr.getLsbD j = true ↔ 8 + j ∈ serving)
  one : ∀ i ∈ serving, ∀ j ∈ serving, 8 ≤ i → 8 ≤ j → i = j

variable {p p' : Pair} {serving : List ℕ} {v : BitVec 8} {irq : ℕ}

theorem served_nil (hmaster : p.master.isr = 0) (hslave : p.slave.isr = 0) : Served p [] where
  nodup := List.nodup_nil
  numbers := nofun
  master := by simp [hmaster]
  cascade := by simp [hmaster]
  slave := by simp [hslave]
  one := nofun

/-- When nothing is being served, nothing is in service. -/
theorem Served.isr_zero (h : Served p []) : p.master.isr = 0 ∧ p.slave.isr = 0 := by
  have hzero : ∀ x : BitVec 8, (∀ i < 8, x.getLsbD i ≠ true) → x = 0 := by
    intro x hx
    apply BitVec.eq_of_getLsbD_eq
    intro i hi
    rw [Bool.eq_false_iff.mpr (hx i hi)]
    exact BitVec.getLsbD_zero.symm
  constructor
  · apply hzero
    intro i hi hbit
    by_cases hc : i = CASCADE
    · subst hc
      obtain ⟨j, hj, -⟩ := h.cascade.mp hbit
      exact absurd hj List.not_mem_nil
    · exact absurd ((h.master i hi hc).mp hbit) List.not_mem_nil
  · apply hzero
    intro i hi hbit
    exact absurd ((h.slave i hi).mp hbit) List.not_mem_nil

theorem Served.raise (h : Served p serving) (irq : ℕ) : Served (p.raise irq) serving := by
  unfold Pair.raise
  split <;> exact ⟨h.nodup, h.numbers, h.master, h.cascade, h.slave, h.one⟩

/-- What is accepted: a line of the first chip, or one of the second. -/
theorem accept_cases (h : p.accept = some (v, irq, p')) :
    (irq < 8 ∧ irq ≠ CASCADE ∧ p.lines.Eligible irq ∧ v = p.master.base + BitVec.ofNat 8 irq ∧
        p' = { p with master := p.master.serve irq }) ∨
      ∃ j < 8, irq = 8 + j ∧ p.lines.Eligible CASCADE ∧ p.slave.Eligible j ∧
        v = p.slave.base + BitVec.ofNat 8 j ∧
        p' = { master := p.master.serve CASCADE, slave := p.slave.serve j } := by
  unfold accept at h
  split at h
  · cases h
  · split at h
    · cases h
    · rename_i i hline
      obtain ⟨hi, heligible⟩ := Chip.request_eq_some hline
      split at h
      · rename_i hc
        split at h
        · cases h
        · rename_i j hslave
          obtain ⟨hj, hj'⟩ := Chip.request_eq_some hslave
          obtain ⟨rfl, hrest⟩ := Prod.mk.inj (Option.some.inj h)
          obtain ⟨rfl, rfl⟩ := Prod.mk.inj hrest
          exact Or.inr ⟨j, hj, rfl, hc ▸ heligible, hj', rfl, rfl⟩
      · rename_i hc
        obtain ⟨rfl, hrest⟩ := Prod.mk.inj (Option.some.inj h)
        obtain ⟨rfl, rfl⟩ := Prod.mk.inj hrest
        exact Or.inl ⟨hi, hc, heligible, rfl, rfl⟩

/-- **No interrupt is accepted again before it has been ended**, and the list stays right. -/
theorem Served.accept (h : Served p serving) (hready : Ready p)
    (haccept : p.accept = some (v, irq, p')) : irq ∉ serving ∧ Served p' (irq :: serving) := by
  have hserve : ∀ c : Chip, c.auto_eoi = false → ∀ {i}, i < 8 → ∀ j,
      (c.serve i).isr.getLsbD j = (c.isr.getLsbD j || decide (j = i)) := by
    intro c hc i hi j
    unfold Chip.serve
    rw [hc]
    exact getLsbD_set_bit c.isr hi j
  rcases accept_cases haccept with ⟨hirq, hc, heligible, -, rfl⟩ | ⟨j, hj, rfl, hcascade, heligible, -, rfl⟩
  · -- a line of the first chip, which is not in service
    have hnot : irq ∉ serving := by
      intro hmem
      have hfalse : p.master.isr.getLsbD irq = false := heligible.2.2 irq (Nat.le_refl _)
      have htrue := (h.master irq hirq hc).mpr hmem
      rw [htrue] at hfalse
      cases hfalse
    refine ⟨hnot, ⟨List.nodup_cons.mpr ⟨hnot, h.nodup⟩, ?_, ?_, ?_, ?_, ?_⟩⟩
    · rintro i (_ | ⟨_, hmem⟩)
      · exact ⟨by omega, hc⟩
      · exact h.numbers i hmem
    · intro i hi hne
      rw [hserve _ hready.master_eoi hirq, Bool.or_eq_true, h.master i hi hne, decide_eq_true_eq,
        List.mem_cons]
      exact or_comm
    · rw [hserve _ hready.master_eoi hirq, Bool.or_eq_true, h.cascade, decide_eq_true_eq]
      have hne : ¬ CASCADE = irq := fun heq => hc heq.symm
      simp [hne, hirq]
    · intro i hi
      rw [h.slave i hi, List.mem_cons]
      have hne : ¬ 8 + i = irq := by omega
      simp [hne]
    · intro i hi j hj hi' hj'
      have hi : i ∈ serving := (List.mem_cons.mp hi).resolve_left (by omega)
      have hj : j ∈ serving := (List.mem_cons.mp hj).resolve_left (by omega)
      exact h.one i hi j hj hi' hj'
  · -- a line of the second chip: none of that chip is in service
    have hnone : ∀ i ∈ serving, ¬ 8 ≤ i := by
      intro i hmem hi
      have hfalse : p.master.isr.getLsbD CASCADE = false := hcascade.2.2 CASCADE (Nat.le_refl _)
      rw [h.cascade.mpr ⟨i, hmem, hi⟩] at hfalse
      cases hfalse
    have hnot : 8 + j ∉ serving := fun hmem => hnone _ hmem (by omega)
    refine ⟨hnot, ⟨List.nodup_cons.mpr ⟨hnot, h.nodup⟩, ?_, ?_, ?_, ?_, ?_⟩⟩
    · rintro i (_ | ⟨_, hmem⟩)
      · have hcas : CASCADE = 2 := rfl
        omega
      · exact h.numbers i hmem
    · intro i hi hne
      rw [hserve _ hready.master_eoi (by decide), Bool.or_eq_true, h.master i hi hne,
        decide_eq_true_eq, List.mem_cons]
      have hne' : ¬ i = 8 + j := by omega
      simp [hne, hne']
    · rw [hserve _ hready.master_eoi (by decide)]
      simp
    · intro i hi
      rw [hserve _ hready.slave_eoi hj, Bool.or_eq_true, h.slave i hi, decide_eq_true_eq,
        List.mem_cons, Nat.add_left_cancel_iff]
      exact or_comm
    · have heq : ∀ i ∈ (8 + j) :: serving, 8 ≤ i → i = 8 + j := by
        intro i hi hi'
        exact (List.mem_cons.mp hi).resolve_right fun hmem => hnone i hmem hi'
      intro i hi k hk hi' hk'
      rw [heq i hi hi', heq k hk hk']

/-- **The end of an interrupt** takes it out of the list, and nothing else. -/
theorem Served.finish (h : Served p serving) (hirq : irq ∈ serving) :
    Served (p.finish irq) (serving.erase irq) := by
  have hmem : ∀ i, i ∈ serving.erase irq ↔ i ≠ irq ∧ i ∈ serving := fun i => h.nodup.mem_erase_iff
  have hnumber := h.numbers irq hirq
  have hcas : CASCADE = 2 := rfl
  refine ⟨h.nodup.erase irq, fun i hi => h.numbers i (List.mem_of_mem_erase hi), ?_, ?_, ?_,
    fun i hi j hj => h.one i (List.mem_of_mem_erase hi) j (List.mem_of_mem_erase hj)⟩
  · intro i hi hne
    rw [hmem]
    unfold Pair.finish
    split
    · rename_i hlt
      show (clear_bit p.master.isr irq).getLsbD i = true ↔ _
      rw [getLsbD_clear_bit _ hlt hi, Bool.and_eq_true, h.master i hi hne]
      simp [and_comm]
    · show (clear_bit p.master.isr CASCADE).getLsbD i = true ↔ _
      have hne' : i ≠ irq := by omega
      rw [getLsbD_clear_bit _ (by decide) hi, Bool.and_eq_true, h.master i hi hne]
      simp [hne, hne']
  · unfold Pair.finish
    split
    · rename_i hlt
      show (clear_bit p.master.isr irq).getLsbD CASCADE = true ↔ _
      have hne : CASCADE ≠ irq := fun heq => hnumber.2 heq.symm
      rw [getLsbD_clear_bit _ hlt (by decide), Bool.and_eq_true, h.cascade]
      constructor
      · rintro ⟨⟨j, hj, hj'⟩, -⟩
        exact ⟨j, (hmem j).mpr ⟨by omega, hj⟩, hj'⟩
      · rintro ⟨j, hj, hj'⟩
        exact ⟨⟨j, ((hmem j).mp hj).2, hj'⟩, by simp [hne]⟩
    · rename_i hge
      show (clear_bit p.master.isr CASCADE).getLsbD CASCADE = true ↔ _
      -- it was the only one of the second chip
      rw [getLsbD_clear_bit _ (by decide) (by decide)]
      simp only [decide_true, Bool.not_true, Bool.and_false, Bool.false_eq_true, false_iff]
      rintro ⟨j, hj, hj'⟩
      obtain ⟨hne, hj⟩ := (hmem j).mp hj
      exact hne (h.one j hj irq hirq hj' (by omega))
  · intro j hj
    rw [hmem]
    unfold Pair.finish
    split
    · rename_i hlt
      show p.slave.isr.getLsbD j = true ↔ _
      have hne : 8 + j ≠ irq := by omega
      rw [h.slave j hj]
      simp [hne]
    · rename_i hge
      show (clear_bit p.slave.isr (irq - 8)).getLsbD j = true ↔ _
      have hsame : j = irq - 8 ↔ 8 + j = irq := by omega
      rw [getLsbD_clear_bit _ (by omega) hj, Bool.and_eq_true, h.slave j hj]
      simp [hsame, and_comm]

/-- **A request of line 0 is accepted at once**, whatever else is in service. -/
theorem Served.accept_zero (h : Served p serving) (hready : Ready p)
    (hirr : p.master.irr.getLsbD 0 = true) (himr : p.master.imr.getLsbD 0 = false)
    (hno : 0 ∉ serving) :
    p.accept = some (p.master.base, 0, { p with master := p.master.serve 0 }) := by
  have hbit : p.master.isr.getLsbD 0 = false := by
    rw [Bool.eq_false_iff]
    exact mt (h.master 0 (by decide) (by decide)).mp hno
  have heligible : p.lines.Eligible 0 := by
    refine ⟨?_, himr, fun j hj => ?_⟩
    · unfold lines
      split
      · show (set_bit p.master.irr CASCADE).getLsbD 0 = true
        rw [getLsbD_set_bit _ (by decide), hirr]
        rfl
      · show (clear_bit p.master.irr CASCADE).getLsbD 0 = true
        rw [getLsbD_clear_bit _ (by decide) (by decide), hirr]
        rfl
    · obtain rfl : j = 0 := by omega
      exact hbit
  obtain ⟨j, hrequest, hj⟩ := Chip.exists_request (by decide) heligible
  obtain rfl : j = 0 := by omega
  unfold Pair.accept
  rw [if_neg (by simp [hready.master, hready.slave]), hrequest]
  have hzero : p.master.base + BitVec.ofNat 8 0 = p.master.base := BitVec.add_zero _
  dsimp only
  rw [if_neg (by decide), hzero]

end Pair

end I8259
