/-
`i8259.c`, and the way of an interrupt from its line to its handler.

The controllers are set up once, three interrupts and the cascade are enabled, and every handler ends
its interrupt with `send_eoi`. Between that and the acceptance of the interrupt other interrupts come,
and other processes run; nothing orders the ends of the interrupts. What holds in every run is that
the processor is given one of three vectors, whose gates are those of the three handlers, that no
interrupt is accepted again before it has been ended, and that the timer is never held up by the
others.
-/
import LinuxLikeOS.Gates
import LinuxLikeOS.Pic8259
import LinuxLikeOS.Transition

set_option autoImplicit false

namespace LinuxLikeOS

open I8259 Transition

def MASTER_8259_PORT : ℕ := 0x20
def SLAVE_8259_PORT : ℕ := 0xA0
def ICW1 : ℕ := 0x11
def ICW2_MASTER : ℕ := 0x20
def ICW2_SLAVE : ℕ := 0x28
def ICW3_MASTER : ℕ := 0x04
def ICW3_SLAVE : ℕ := 0x02
def ICW4 : ℕ := 0x01
def START_SLAVE_PIC : ℕ := 8
def MAX_IRQS : ℕ := 15
def SLAVE_PIC_IRQ : ℕ := 2
def EOI : ℕ := 0x60
def master_mask : ℕ := 0xFF
def slave_mask : ℕ := 0xFF
def PIT_IRQ : ℕ := 0
def KEYBOARD_IRQ : ℕ := 1
def RTC_IRQ : ℕ := 8

/-! ## The driver -/

/-- The low byte of `data` at a port of the controllers. -/
def outb (data port : ℕ) (p : Pair) : Pair :=
  if port = MASTER_8259_PORT then
    { p with master := p.master.write_command (BitVec.ofNat 8 data) }
  else if port = MASTER_8259_PORT + 1 then
    { p with master := p.master.write_data (BitVec.ofNat 8 data) }
  else if port = SLAVE_8259_PORT then
    { p with slave := p.slave.write_command (BitVec.ofNat 8 data) }
  else if port = SLAVE_8259_PORT + 1 then
    { p with slave := p.slave.write_data (BitVec.ofNat 8 data) }
  else p

/-- A byte from one of the odd ports. -/
def inb (port : ℕ) (p : Pair) : BitVec 8 :=
  if port = MASTER_8259_PORT + 1 then p.master.read_data else p.slave.read_data

/-- A bit of a mask is changed. -/
def change_mask (change : BitVec 8 → ℕ → BitVec 8) (irq_num : ℕ) (p : Pair) : Pair :=
  if irq_num > MAX_IRQS then p
  else if irq_num < START_SLAVE_PIC then
    let port := MASTER_8259_PORT + 1
    let value := change (inb port p) irq_num
    outb value.toNat port p
  else
    let port := SLAVE_8259_PORT + 1
    let irq_num := irq_num - START_SLAVE_PIC
    let value := change (inb port p) irq_num
    outb value.toNat port p

def enable_irq : ℕ → Pair → Pair := change_mask fun value irq_num => value &&& ~~~(1#8 <<< irq_num)

def send_eoi (irq_num : ℕ) (p : Pair) : Pair :=
  if irq_num > MAX_IRQS then p
  else if irq_num < START_SLAVE_PIC then outb (EOI ||| irq_num) MASTER_8259_PORT p
  else
    let p := outb ((EOI ||| irq_num) - START_SLAVE_PIC) SLAVE_8259_PORT p
    outb (EOI ||| SLAVE_PIC_IRQ) MASTER_8259_PORT p

def i8259_init (p : Pair) : Pair :=
  let p := outb ICW1 MASTER_8259_PORT p
  let p := outb ICW1 SLAVE_8259_PORT p
  let p := outb ICW2_MASTER (MASTER_8259_PORT + 1) p
  let p := outb ICW2_SLAVE (SLAVE_8259_PORT + 1) p
  let p := outb ICW3_MASTER (MASTER_8259_PORT + 1) p
  let p := outb ICW3_SLAVE (SLAVE_8259_PORT + 1) p
  let p := outb ICW4 (MASTER_8259_PORT + 1) p
  let p := outb ICW4 (SLAVE_8259_PORT + 1) p
  let p := outb master_mask (MASTER_8259_PORT + 1) p
  let p := outb slave_mask (SLAVE_8259_PORT + 1) p
  enable_irq SLAVE_PIC_IRQ p

/-- What `entry` does to the controllers: `i8259_init`, and the ends of `init_ps2devices`, `init_RTC`
and `init_pit`. -/
def init_interrupts (p : Pair) : Pair :=
  enable_irq PIT_IRQ (enable_irq RTC_IRQ (enable_irq KEYBOARD_IRQ (i8259_init p)))

/-! ## Its functions -/

section

variable {p p' : Pair} {irq : ℕ}

/-- The masks of both chips as one word. -/
def masked (p : Pair) (irq : ℕ) : Bool :=
  if irq < 8 then p.master.imr.getLsbD irq else p.slave.imr.getLsbD (irq - 8)

/-- The chips but for their masks. -/
def SameButMasks (p p' : Pair) : Prop :=
  { p'.master with imr := 0 } = { p.master with imr := 0 } ∧
    { p'.slave with imr := 0 } = { p.slave with imr := 0 }

theorem SameButMasks.trans {p'' : Pair} (h : SameButMasks p p') (h' : SameButMasks p' p'') :
    SameButMasks p p'' :=
  ⟨h'.1.trans h.1, h'.2.trans h.2⟩

theorem SameButMasks.ready (h : SameButMasks p p') (hready : p.Ready) : p'.Ready := by
  obtain ⟨-, -, -, -, hmaster, -, hmaster'⟩ := Chip.mk.inj h.1
  obtain ⟨-, -, -, -, hslave, -, hslave'⟩ := Chip.mk.inj h.2
  exact ⟨hmaster.trans hready.master, hslave.trans hready.slave,
    hmaster'.trans hready.master_eoi, hslave'.trans hready.slave_eoi⟩

/-- **One mask is changed**, and nothing else of the chips. -/
theorem change_mask_spec {change : BitVec 8 → ℕ → BitVec 8} {b : Bool}
    (hchange : ∀ x i j, i < 8 → j < 8 →
      (change x i).getLsbD j = if j = i then b else x.getLsbD j) (h : p.Ready) (irq_num : ℕ) :
    SameButMasks p (change_mask change irq_num p) ∧
      ∀ irq < 16, masked (change_mask change irq_num p) irq
        = if irq = irq_num then b else masked p irq := by
  have hmax : MAX_IRQS = 15 := rfl
  have hslave : START_SLAVE_PIC = 8 := rfl
  unfold change_mask
  split
  · refine ⟨⟨rfl, rfl⟩, fun irq hirq => ?_⟩
    rw [if_neg (by omega)]
  · split
    · rename_i hlt
      -- the mask register of the first chip is written back
      have hout : ∀ v : BitVec 8, outb v.toNat (MASTER_8259_PORT + 1) p
          = { p with master := { p.master with imr := v } } := by
        intro v
        rw [← Chip.write_data_of_ready h.master, outb, if_neg (by decide), if_pos rfl,
          BitVec.ofNat_toNat, BitVec.setWidth_eq]
      dsimp only
      rw [hout]
      refine ⟨⟨rfl, rfl⟩, fun irq hirq => ?_⟩
      unfold masked
      split
      · exact hchange _ _ _ (by omega) (by omega)
      · rw [if_neg (by omega)]
    · rename_i hge
      have hout : ∀ v : BitVec 8, outb v.toNat (SLAVE_8259_PORT + 1) p
          = { p with slave := { p.slave with imr := v } } := by
        intro v
        rw [← Chip.write_data_of_ready h.slave, outb, if_neg (by decide), if_neg (by decide),
          if_neg (by decide), if_pos rfl, BitVec.ofNat_toNat, BitVec.setWidth_eq]
      dsimp only
      rw [hout]
      refine ⟨⟨rfl, rfl⟩, fun irq hirq => ?_⟩
      unfold masked
      split
      · rw [if_neg (by omega)]
      · have hsame : irq - 8 = irq_num - START_SLAVE_PIC ↔ irq = irq_num := by omega
        refine (hchange _ _ _ (by omega) (by omega)).trans ?_
        simp only [hsame]
        rfl

theorem enable_irq_spec (h : p.Ready) (irq_num : ℕ) :
    SameButMasks p (enable_irq irq_num p) ∧
      ∀ irq < 16, masked (enable_irq irq_num p) irq = if irq = irq_num then false else masked p irq := by
  apply change_mask_spec ?_ h irq_num
  intro x i j hi hj
  refine (getLsbD_clear_bit x hi hj).trans ?_
  by_cases hij : j = i <;> simp [hij]

/-- **`send_eoi` ends its interrupt**, on both chips when it is one of the second. -/
theorem send_eoi_eq (hirq : irq < 16) (p : Pair) : send_eoi irq p = p.finish irq := by
  have hmax : MAX_IRQS = 15 := rfl
  have hslave : START_SLAVE_PIC = 8 := rfl
  -- the command bytes have the specific end of interrupt and the number of the line
  have hbits : ∀ line : Fin 8,
      ((BitVec.ofNat 8 (EOI ||| line.val)).getLsbD 4 = false ∧
        (BitVec.ofNat 8 (EOI ||| line.val)).getLsbD 3 = false) ∧
      BitVec.ofNat 8 (EOI ||| line.val) >>> 5 = 3 ∧
      (BitVec.ofNat 8 (EOI ||| line.val) &&& 7).toNat = line.val ∧
      (EOI ||| (line.val + 8)) - START_SLAVE_PIC = EOI ||| line.val := by decide
  have hmaster : ∀ line : Fin 8, ∀ c : Chip, c.write_command (BitVec.ofNat 8 (EOI ||| line.val))
      = { c with isr := clear_bit c.isr line } := by
    intro line c
    obtain ⟨hocw2, hop, hline, -⟩ := hbits line
    exact c.specific_eoi hocw2 hop hline
  unfold send_eoi Pair.finish
  rw [if_neg (by omega)]
  split
  · rename_i hlt
    rw [if_pos (by omega), outb, if_pos rfl, hmaster ⟨irq, by omega⟩]
  · rename_i hge
    obtain ⟨line, hline⟩ : ∃ line : Fin 8, irq = line.val + 8 := ⟨⟨irq - 8, by omega⟩, by
      dsimp only
      omega⟩
    subst hline
    rw [if_neg (by omega)]
    dsimp only
    rw [(hbits line).2.2.2, outb, if_pos rfl, outb, if_neg (by decide), if_neg (by decide), if_pos rfl,
      hmaster line, hmaster ⟨SLAVE_PIC_IRQ, by decide⟩, Nat.add_sub_cancel]
    rfl

/-- The chips as the kernel uses them. -/
structure SetUp (p : Pair) : Prop where
  ready : p.Ready
  master : p.master.base = 0x20
  slave : p.slave.base = 0x28
  masks : ∀ irq < 16, masked p irq = decide (irq ∉ [PIT_IRQ, KEYBOARD_IRQ, SLAVE_PIC_IRQ, RTC_IRQ])

/-- **The chips are set up**, whatever they had been told before. -/
theorem init_interrupts_set_up (p : Pair) : SetUp (init_interrupts p) ∧
    (init_interrupts p).master.isr = p.master.isr ∧ (init_interrupts p).slave.isr = p.slave.isr := by
  obtain ⟨p₀, hinit, hready, hfirst, hmasked⟩ : ∃ p₀, i8259_init p = enable_irq SLAVE_PIC_IRQ p₀ ∧
      p₀.Ready ∧ (p₀.master.base = 0x20 ∧ p₀.slave.base = 0x28 ∧ p₀.master.isr = p.master.isr ∧
        p₀.slave.isr = p.slave.isr) ∧ ∀ irq < 16, masked p₀ irq = true := by
    refine ⟨{ master := ((((p.master.write_command 0x11).write_data 0x20).write_data 0x04).write_data
                0x01).write_data 0xFF
              slave := ((((p.slave.write_command 0x11).write_data 0x28).write_data 0x02).write_data
                0x01).write_data 0xFF }, rfl, ?_⟩
    rw [Chip.set_up _ (by decide) (by decide), Chip.set_up _ (by decide) (by decide)]
    have hmaster : (0x20 &&& 0xF8 : BitVec 8) = 0x20 := by decide
    have hslave : (0x28 &&& 0xF8 : BitVec 8) = 0x28 := by decide
    refine ⟨⟨rfl, rfl, rfl, rfl⟩, ⟨hmaster, hslave, rfl, rfl⟩, fun irq hirq => ?_⟩
    have hall : ∀ i : Fin 16, (if i.val < 8 then (0xFF : BitVec 8).getLsbD i.val
        else (0xFF : BitVec 8).getLsbD (i.val - 8)) = true := by decide
    exact hall ⟨irq, hirq⟩
  unfold init_interrupts
  rw [hinit]
  -- the four calls of `enable_irq`, one after the other
  obtain ⟨h₁, hm₁⟩ := enable_irq_spec hready SLAVE_PIC_IRQ
  have hr₁ := h₁.ready hready
  obtain ⟨h₂, hm₂⟩ := enable_irq_spec hr₁ KEYBOARD_IRQ
  have hr₂ := h₂.ready hr₁
  obtain ⟨h₃, hm₃⟩ := enable_irq_spec hr₂ RTC_IRQ
  have hr₃ := h₃.ready hr₂
  obtain ⟨h₄, hm₄⟩ := enable_irq_spec hr₃ PIT_IRQ
  have hsame := ((h₁.trans h₂).trans h₃).trans h₄
  obtain ⟨-, hisr, -, hbase, -, -, -⟩ := Chip.mk.inj hsame.1
  obtain ⟨-, hisr', -, hbase', -, -, -⟩ := Chip.mk.inj hsame.2
  obtain ⟨hb, hb', hi, hi'⟩ := hfirst
  refine ⟨⟨h₄.ready hr₃, hbase.trans hb, hbase'.trans hb', fun irq hirq => ?_⟩, hisr.trans hi,
    hisr'.trans hi'⟩
  rw [hm₄ irq hirq, hm₃ irq hirq, hm₂ irq hirq, hm₁ irq hirq, hmasked irq hirq]
  have hall : ∀ irq : Fin 16, (if irq.val = PIT_IRQ then false else if irq.val = RTC_IRQ then false
      else if irq.val = KEYBOARD_IRQ then false else if irq.val = SLAVE_PIC_IRQ then false else true)
      = decide (irq.val ∉ [PIT_IRQ, KEYBOARD_IRQ, SLAVE_PIC_IRQ, RTC_IRQ]) := by decide
  exact hall ⟨irq, hirq⟩

end

/-! ## Delivery -/

/-- The controllers, and the interrupts whose handlers have been entered and have not come to
`send_eoi`. -/
structure Delivery where
  chips : Pair
  serving : List ℕ

inductive PicOp
  /-- A device requests an interrupt. -/
  | raise (irq : ℕ)
  /-- The processor accepts one, and enters its handler. -/
  | accept
  /-- A handler comes to its `send_eoi`. -/
  | send_eoi (irq : ℕ)

def pic_step (d : Delivery) : PicOp → Option Delivery
  | .raise irq => some { d with chips := d.chips.raise irq }
  | .accept => d.chips.accept.map fun (_, irq, chips) => ⟨chips, irq :: d.serving⟩
  | .send_eoi irq =>
      if irq ∈ d.serving then some ⟨send_eoi irq d.chips, d.serving.erase irq⟩ else none

/-- The handlers of the three devices, by the number of their line. -/
def irq_handler : List (ℕ × IdtHandler) :=
  [(PIT_IRQ, .pit_handler_linkage), (KEYBOARD_IRQ, .keyboard_handler_linkage),
    (RTC_IRQ, .rtc_handler_linkage)]

/-- A device waits for its interrupt. -/
def requested (p : Pair) (irq : ℕ) : Prop :=
  if irq < 8 then p.master.irr.getLsbD irq = true else p.slave.irr.getLsbD (irq - 8) = true

instance (p : Pair) (irq : ℕ) : Decidable (requested p irq) := inferInstanceAs (Decidable (ite _ _ _))

/-- What holds of the controllers in every state. -/
structure PicInv (d : Delivery) : Prop where
  set_up : SetUp d.chips
  served : d.chips.Served d.serving

section

variable {d d' : Delivery} {p p' : Pair} {irq : ℕ} {v : BitVec 8}

/-- What is set up does not depend on the requests and on what is in service. -/
theorem SetUp.congr (h : SetUp p) (hmaster : p'.master = { p.master with
      irr := p'.master.irr, isr := p'.master.isr })
    (hslave : p'.slave = { p.slave with irr := p'.slave.irr, isr := p'.slave.isr }) : SetUp p' := by
  obtain ⟨-, -, himr, hbase, hstage, -, heoi⟩ := Chip.mk.inj hmaster
  obtain ⟨-, -, himr', hbase', hstage', -, heoi'⟩ := Chip.mk.inj hslave
  refine ⟨⟨hstage.trans h.ready.master, hstage'.trans h.ready.slave, heoi.trans h.ready.master_eoi,
    heoi'.trans h.ready.slave_eoi⟩, hbase.trans h.master, hbase'.trans h.slave, fun irq hirq => ?_⟩
  rw [← h.masks irq hirq]
  unfold masked
  rw [himr, himr']

/-- The interrupts that can be accepted are those of the three devices. -/
theorem SetUp.accepted (h : SetUp p) (haccept : p.accept = some (v, irq, p')) :
    SetUp p' ∧ v = 0x20 + BitVec.ofNat 8 irq ∧ irq ∈ [PIT_IRQ, KEYBOARD_IRQ, RTC_IRQ] := by
  have hopen : ∀ i < 16, masked p i = false → i ∈ [PIT_IRQ, KEYBOARD_IRQ, SLAVE_PIC_IRQ, RTC_IRQ] := by
    intro i hi hmask
    rw [h.masks i hi] at hmask
    exact of_decide_eq_false hmask |> Decidable.not_not.mp
  rcases Pair.accept_cases haccept with ⟨hirq, hne, heligible, rfl, rfl⟩ | ⟨j, hj, rfl, -, heligible, rfl, rfl⟩
  · refine ⟨h.congr rfl rfl, by rw [h.master], ?_⟩
    have hmem := hopen irq (by omega) (by
      unfold masked
      rw [if_pos hirq]
      exact heligible.2.1)
    -- the line of the second chip is not one of a device
    simp only [List.mem_cons, List.not_mem_nil, or_false] at hmem ⊢
    rcases hmem with h | h | h | h
    · exact Or.inl h
    · exact Or.inr (Or.inl h)
    · exact absurd h hne
    · exact Or.inr (Or.inr h)
  · have hmem := hopen (8 + j) (by omega) (by
      unfold masked
      rw [if_neg (by omega), Nat.add_sub_cancel_left]
      exact heligible.2.1)
    have hj : j = 0 := by
      simp only [List.mem_cons, List.not_mem_nil, or_false] at hmem
      have hpit : PIT_IRQ = 0 := rfl
      have hkeyboard : KEYBOARD_IRQ = 1 := rfl
      have hcascade : SLAVE_PIC_IRQ = 2 := rfl
      have hrtc : RTC_IRQ = 8 := rfl
      omega
    subst hj
    refine ⟨h.congr rfl rfl, ?_, by decide⟩
    rw [h.slave]
    decide

/-- **One step** keeps the masks and the vectors, and the list of what is served. -/
theorem pic_step_inv (h : PicInv d) {op : PicOp} (hstep : pic_step d op = some d') : PicInv d' := by
  cases op with
  | raise irq =>
      obtain rfl := Option.some.inj hstep
      refine ⟨h.set_up.congr ?_ ?_, h.served.raise irq⟩ <;>
        · unfold Pair.raise
          split <;> rfl
  | accept =>
      obtain ⟨⟨v, irq, p⟩, haccept, rfl⟩ := Option.map_eq_some_iff.mp hstep
      exact ⟨(h.set_up.accepted haccept).1, (h.served.accept h.set_up.ready haccept).2⟩
  | send_eoi irq =>
      simp only [pic_step] at hstep
      split at hstep
      · rename_i hmem
        obtain rfl := Option.some.inj hstep
        have hirq := (h.served.numbers irq hmem).1
        rw [send_eoi_eq hirq]
        refine ⟨h.set_up.congr ?_ ?_, h.served.finish hmem⟩ <;>
          · unfold Pair.finish
            split <;> rfl
      · cases hstep

/-- A device does not wait when nothing is being served. -/
theorem PicInv.accept_isSome (h : PicInv d) (hnone : d.serving = [])
    (hirq : irq ∈ [PIT_IRQ, KEYBOARD_IRQ, RTC_IRQ]) (hrequested : requested d.chips irq) :
    d.chips.accept.isSome = true := by
  obtain ⟨chips, serving⟩ := d
  obtain rfl : serving = [] := hnone
  obtain ⟨hmaster, hslave⟩ := h.served.isr_zero
  have hmask : ∀ i < 16, i ∈ [PIT_IRQ, KEYBOARD_IRQ, SLAVE_PIC_IRQ, RTC_IRQ] → masked chips i = false := by
    intro i hi hmem
    rw [h.set_up.masks i hi]
    exact decide_eq_false (not_not.mpr hmem)
  -- some line of the first chip is passed on, and the second chip has one if it is its line
  have hline : ∃ i < 8, chips.lines.Eligible i := by
    by_cases hlt : irq < 8
    · refine ⟨irq, hlt, ?_, ?_, fun j _ => ?_⟩
      · have hne : irq ≠ CASCADE := by
          rintro rfl
          exact absurd hirq (by decide)
        unfold requested at hrequested
        rw [if_pos hlt] at hrequested
        unfold Pair.lines
        split
        · show (set_bit _ _).getLsbD irq = true
          rw [getLsbD_set_bit _ (by decide), hrequested, Bool.true_or]
        · show (clear_bit _ _).getLsbD irq = true
          rw [getLsbD_clear_bit _ (by decide) hlt, hrequested, decide_eq_false hne]
          rfl
      · have hopen := hmask irq (by omega) (by
          simp only [List.mem_cons, List.not_mem_nil, or_false] at hirq ⊢
          tauto)
        unfold masked at hopen
        rwa [if_pos hlt] at hopen
      · show chips.master.isr.getLsbD j = false
        rw [hmaster]
        exact BitVec.getLsbD_zero
    · obtain rfl : irq = RTC_IRQ := by
        have hpit : PIT_IRQ = 0 := rfl
        have hkeyboard : KEYBOARD_IRQ = 1 := rfl
        simp only [List.mem_cons, List.not_mem_nil, or_false] at hirq
        omega
      have heligible : chips.slave.Eligible 0 := by
        refine ⟨hrequested, hmask RTC_IRQ (by decide) (by decide), fun j _ => ?_⟩
        rw [hslave]
        exact BitVec.getLsbD_zero
      obtain ⟨j, hj, -⟩ := Chip.exists_request (by decide) heligible
      refine ⟨CASCADE, by decide, ?_, hmask SLAVE_PIC_IRQ (by decide) (by decide), fun i _ => ?_⟩
      · unfold Pair.lines
        rw [hj, Option.isSome_some, if_pos rfl]
        show (set_bit _ _).getLsbD CASCADE = true
        rw [getLsbD_set_bit _ (by decide), decide_eq_true rfl, Bool.or_true]
      · show chips.master.isr.getLsbD i = false
        rw [hmaster]
        exact BitVec.getLsbD_zero
  obtain ⟨i, hi, heligible⟩ := hline
  obtain ⟨j, hrequest, -⟩ := Chip.exists_request hi heligible
  have hready : ¬ (chips.master.stage ≠ .ready ∨ chips.slave.stage ≠ .ready) := by
    rintro (hne | hne)
    · exact hne h.set_up.ready.master
    · exact hne h.set_up.ready.slave
  unfold Pair.accept
  rw [if_neg hready, hrequest]
  dsimp only
  split
  · rename_i hcascade
    subst hcascade
    obtain ⟨-, hcas, -⟩ := Chip.request_eq_some hrequest
    -- the cascade is only requested by the second chip
    cases hslave' : chips.slave.request with
    | some k => rfl
    | none =>
        have hbit : (clear_bit chips.master.irr CASCADE).getLsbD CASCADE = true := by
          unfold Pair.lines at hcas
          rwa [hslave', Option.isSome_none, if_neg Bool.false_ne_true] at hcas
        rw [getLsbD_clear_bit _ (by decide) (by decide), decide_eq_true rfl, Bool.not_true,
          Bool.and_false] at hbit
        cases hbit
  · rfl

/-- **Interrupts are delivered.** From chips that have nothing in service, after the boot, in every
state of every run: what is accepted next is an interrupt of one of the three devices that is not
being served, and its vector has the gate of the handler for that device, with interrupts off; the
timer is accepted at once unless it is being served; and when nothing is being served no device
waits. -/
theorem interrupts_delivered (handlers : IdtHandler → BitVec 32) (idt : Idt) (hmaster : p.master.isr = 0)
    (hslave : p.slave.isr = 0) {ops : List PicOp}
    (hrun : run pic_step ⟨init_interrupts p, []⟩ ops = some d) :
    d.serving.Nodup ∧
    (∀ v irq p', d.chips.accept = some (v, irq, p') → irq ∉ d.serving ∧
      ∃ h, (irq, h) ∈ irq_handler ∧
        gate (build_idt handlers idt v.toNat) = some ⟨handlers h, KERNEL_CS, 0, true⟩) ∧
    (requested d.chips PIT_IRQ → PIT_IRQ ∉ d.serving →
      ∃ p', d.chips.accept = some (BitVec.ofNat 8 PIT, PIT_IRQ, p')) ∧
    (d.serving = [] → ∀ irq ∈ [PIT_IRQ, KEYBOARD_IRQ, RTC_IRQ], requested d.chips irq →
      d.chips.accept.isSome = true) := by
  obtain ⟨hset, hisr, hisr'⟩ := init_interrupts_set_up p
  have hstart : PicInv ⟨init_interrupts p, []⟩ :=
    ⟨hset, Pair.served_nil (hisr.trans hmaster) (hisr'.trans hslave)⟩
  have hinv : PicInv d := run_invariant PicInv (fun _ _ _ h hstep => pic_step_inv h hstep) hstart hrun
  refine ⟨hinv.served.nodup, ?_, ?_, fun hnone irq hirq => hinv.accept_isSome hnone hirq⟩
  · intro v irq p' haccept
    refine ⟨(hinv.served.accept hinv.set_up.ready haccept).1, ?_⟩
    obtain ⟨-, rfl, hirq⟩ := hinv.set_up.accepted haccept
    have hvector : ∀ irq ∈ [PIT_IRQ, KEYBOARD_IRQ, RTC_IRQ], ∃ h, (irq, h) ∈ irq_handler ∧
        (0x20 + BitVec.ofNat 8 irq).toNat < NUM_VEC ∧
        gate_handler (0x20 + BitVec.ofNat 8 irq).toNat = some h ∧
        (0x20 + BitVec.ofNat 8 irq).toNat ≠ SYSTEM_CALL_VECTOR ∧
        device_vector (0x20 + BitVec.ofNat 8 irq).toNat := by
      intro irq hirq
      simp only [List.mem_cons, List.not_mem_nil, or_false] at hirq
      rcases hirq with rfl | rfl | rfl
      · exact ⟨.pit_handler_linkage, by decide⟩
      · exact ⟨.keyboard_handler_linkage, by decide⟩
      · exact ⟨.rtc_handler_linkage, by decide⟩
    obtain ⟨h, hmem, hvec, hgate, hcall, hdevice⟩ := hvector irq hirq
    refine ⟨h, hmem, ?_⟩
    rw [gate_build_idt handlers idt hvec, hgate]
    dsimp only
    rw [if_neg hcall, decide_eq_true hdevice]
  · intro hrequested hnot
    have himr : d.chips.master.imr.getLsbD 0 = false :=
      (hinv.set_up.masks 0 (by decide)).trans (by decide)
    have haccept := hinv.served.accept_zero hinv.set_up.ready hrequested himr hnot
    rw [hinv.set_up.master] at haccept
    exact ⟨_, haccept⟩

end

/-- The keyboard and the clock wait; the keyboard is accepted, and the timer while it is served. -/
theorem interrupts_delivered_demo :
    ∃ d, run pic_step ⟨init_interrupts ⟨⟨0, 0, 0, 0, .ready, false, false⟩,
        ⟨0, 0, 0, 0, .ready, false, false⟩⟩, []⟩
        [.raise RTC_IRQ, .raise KEYBOARD_IRQ, .accept, .raise PIT_IRQ, .accept, .send_eoi PIT_IRQ]
          = some d ∧
      d.serving = [KEYBOARD_IRQ] ∧ d.serving.Nodup ∧ d.chips.accept = none := by
  obtain ⟨d, hrun, hserving, hnone⟩ : ∃ d, run pic_step ⟨init_interrupts
      ⟨⟨0, 0, 0, 0, .ready, false, false⟩, ⟨0, 0, 0, 0, .ready, false, false⟩⟩, []⟩
      [.raise RTC_IRQ, .raise KEYBOARD_IRQ, .accept, .raise PIT_IRQ, .accept, .send_eoi PIT_IRQ] = some d ∧
      d.serving = [KEYBOARD_IRQ] ∧ d.chips.accept = none := by
    refine ⟨_, rfl, ?_, ?_⟩ <;> decide +kernel
  exact ⟨d, hrun, hserving,
    (interrupts_delivered (fun _ => 0) (fun _ => 0) rfl rfl hrun).1, hnone⟩

end LinuxLikeOS
