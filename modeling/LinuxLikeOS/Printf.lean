/-
`printf` of `lib.c`.

The loop walks one pointer over the format, and a conversion moves it as well: past the
`%`, and past every `#`, which starts the switch over. Behind the conversion the loop goes on
to the next character without a look at the one it stands on. When that is the terminator,
because the format ends inside a conversion, the walk goes on into the memory behind it.

The text is collected in the order of the calls of `putc`. The `conv_buf` of a conversion is
not initialised, so what it holds before is an input, by the argument that is converted.
-/
import LinuxLikeOS.Numbers

set_option autoImplicit false

namespace LinuxLikeOS

open LineEdit

/-! ## The conversions -/

/-- `itoa(value, &conv_buf[n], radix)`. -/
def itoa_at (n value : ℕ) (conv_buf : ℕ → UInt8) (radix : Int) : Option (ℕ → UInt8) :=
  (itoa value (fun i => conv_buf (n + i)) radix).map fun r i =>
    if i < n then conv_buf i else r (i - n)

/-- `while (i < 8) conv_buf[i++] = '0'`. -/
def pad_zeros : ℕ → ℕ → (ℕ → UInt8) → ℕ → UInt8
  | 0, _, conv_buf => conv_buf
  | fuel + 1, i, conv_buf =>
      if i < 8 then pad_zeros fuel (i + 1) (Function.update conv_buf i 0x30) else conv_buf

/-- The text of `%x`, and of `%#x` when `alternate` is set. -/
def hex_text (alternate : Bool) (value : ℕ) (conv_buf : ℕ → UInt8) : Option (List UInt8) :=
  if alternate = false then (itoa value conv_buf 16).map string_at
  else
    -- the digits go to `conv_buf[8]`, and the zeros before them, as many as are missing
    (itoa_at 8 value conv_buf 16).map fun conv_buf =>
      let starting_index := strlen fun i => conv_buf (8 + i)
      let conv_buf := pad_zeros 8 starting_index conv_buf
      string_at fun i => conv_buf (starting_index + i)

/-- The text of `%u`. -/
def unsigned_text (value : ℕ) (conv_buf : ℕ → UInt8) : Option (List UInt8) :=
  (itoa value conv_buf 10).map string_at

/-- The text of `%d`. -/
def signed_text (value : Int) (conv_buf : ℕ → UInt8) : Option (List UInt8) :=
  if value < 0 then
    -- the negation of the smallest value wraps to itself
    (itoa_at 1 (u32 (i32 (-value))) (Function.update conv_buf 0 0x2D) 10).map string_at
  else (itoa (u32 value) conv_buf 10).map string_at

/-! ## The loop -/

section

variable (format : ℕ → UInt8) (args : ℕ → ℕ) (memory : ℕ → UInt8) (conv_buf : ℕ → ℕ → UInt8)

/-- The switch behind a `%`, with the index `buf` points to and the next argument; `none`
when it has not ended after `fuel` jumps. -/
def format_char_switch : ℕ → Bool → ℕ → ℕ → Option (ℕ × ℕ × List UInt8)
  | 0, _, _, _ => none
  | fuel + 1, alternate, buf, esp =>
      if format buf = 0x25 then some (buf, esp, [0x25])
      else if format buf = 0x23 then format_char_switch fuel true (buf + 1) esp
      else if format buf = 0x78 then
        (hex_text alternate (args esp) (conv_buf esp)).map fun text => (buf, esp + 1, text)
      else if format buf = 0x75 then
        (unsigned_text (args esp) (conv_buf esp)).map fun text => (buf, esp + 1, text)
      else if format buf = 0x64 then
        (signed_text (i32 (args esp)) (conv_buf esp)).map fun text => (buf, esp + 1, text)
      else if format buf = 0x63 then some (buf, esp + 1, [UInt8.ofNat (args esp)])
      else if format buf = 0x73 then
        some (buf, esp + 1, string_at fun i => memory (args esp + i))
      else some (buf, esp, [])

/-- The loop of `printf`: the index it ends at, and the characters printed on the way. -/
def printf_loop : ℕ → ℕ → ℕ → Option (ℕ × List UInt8)
  | 0, _, _ => none
  | fuel + 1, buf, esp =>
      if format buf = 0 then some (buf, [])
      else if format buf = 0x25 then
        (format_char_switch format args memory conv_buf ADDRESS_SPACE false (buf + 1) esp).bind
          fun r => (printf_loop fuel (r.1 + 1) r.2.1).map fun rest => (rest.1, r.2.2 ++ rest.2)
      else
        (printf_loop fuel (buf + 1) esp).map fun rest => (rest.1, format buf :: rest.2)

/-- The value returned and the characters printed. -/
def printf : Option (Int × List UInt8) :=
  (printf_loop format args memory conv_buf ADDRESS_SPACE 0 0).map fun r => (i32 (r.1 : Int), r.2)

end

/-! ## The property -/

/-- What the header says a conversion prints. -/
def Converts (memory : ℕ → UInt8) (alternate : Bool) (c : UInt8) (arg : ℕ) (text : List UInt8) :
    Prop :=
  if c = 0x25 then text = [0x25]
  else if c = 0x78 then
    if alternate then
      text.length = 8 ∧ (∀ d, d ∈ text → ∃ n, n < 16 ∧ d = lookup n) ∧ positional_value 16 text = arg
    else Numeral 16 arg text
  else if c = 0x75 then Numeral 10 arg text
  else if c = 0x64 then
    if i32 arg < 0 then ∃ digits, text = 0x2D :: digits ∧ Numeral 10 (-(i32 arg)).toNat digits
    else Numeral 10 (i32 arg).toNat text
  else if c = 0x63 then text = [UInt8.ofNat arg]
  else if c = 0x73 then text = string_at fun i => memory (arg + i)
  else text = []

/-- The conversions that use an argument up. -/
def takes_argument (c : UInt8) : Bool :=
  c = 0x78 || c = 0x75 || c = 0x64 || c = 0x63 || c = 0x73

/-- The text of a format from its next character on: outside a conversion, or inside one, with
or without a `#` before. -/
def Prints (args : ℕ → ℕ) (memory : ℕ → UInt8) : Option Bool → List UInt8 → ℕ → List UInt8 → Prop
  | none, [], _, text => text = []
  | some _, [], _, text => text = []
  | none, c :: cs, arg, text =>
      if c = 0x25 then Prints args memory (some false) cs arg text
      else ∃ rest, text = c :: rest ∧ Prints args memory none cs arg rest
  | some alternate, c :: cs, arg, text =>
      if c = 0x23 then Prints args memory (some true) cs arg text
      else ∃ piece rest, text = piece ++ rest ∧ Converts memory alternate c (args arg) piece ∧
        Prints args memory none cs (if takes_argument c then arg + 1 else arg) rest

/-- A string and its terminator stand in memory from an index on. -/
structure StringAt (s : ℕ → UInt8) (i : ℕ) (text : List UInt8) : Prop where
  get : ∀ j (hj : j < text.length), s (i + j) = text[j]
  terminator : s (i + text.length) = 0
  no_terminator : (0 : UInt8) ∉ text

/-- `printf` prints the text of the format and returns its length, whatever stands behind its
terminator. -/
def PrintsFormat (args : ℕ → ℕ) (memory : ℕ → UInt8) (conv_buf : ℕ → ℕ → UInt8)
    (text : List UInt8) : Prop :=
  ∃ out, Prints args memory none text 0 out ∧ ∀ format, StringAt format 0 text →
    printf format args memory conv_buf = some ((text.length : Int), out)

/-- The format ends inside a conversion. -/
def ends_open : Bool → List UInt8 → Bool
  | inside, [] => inside
  | false, c :: cs => ends_open (c = 0x25) cs
  | true, c :: cs => ends_open (c = 0x23) cs

/-! ## The texts of the conversions -/

theorem zero_notMem_numeral {radix value : ℕ} (h : 2 ≤ radix ∧ radix ≤ 36)
    (hv : value < 4294967296) : (0 : UInt8) ∉ numeral radix value := by
  intro hmem
  obtain ⟨d, hd, hz⟩ := (numeral_spec h hv).digits 0 hmem
  exact lookup_ne_zero (by omega) hz.symm

theorem itoa_text {radix value : ℕ} (h : 2 ≤ radix ∧ radix ≤ 36) (hv : value < 4294967296)
    (buf : ℕ → UInt8) : (itoa value buf radix).map string_at = some (numeral radix value) := by
  obtain ⟨r, hr, htext, -⟩ := itoa_eq h hv buf
  rw [hr, Option.map_some, htext]

/-- **A numeral behind a prefix of the buffer.** -/
theorem itoa_at_eq {radix value : ℕ} (h : 2 ≤ radix ∧ radix ≤ 36) (hv : value < 4294967296)
    (n : ℕ) (conv_buf : ℕ → UInt8) :
    ∃ r, itoa_at n value conv_buf radix = some r ∧ (∀ i, i < n → r i = conv_buf i) ∧
      Written (fun i => r (n + i)) (numeral radix value).length (numeral radix value) ∧
      r (n + (numeral radix value).length) = 0 := by
  obtain ⟨r, hr, -, hw, hend, -⟩ := itoa_eq h hv fun i => conv_buf (n + i)
  have hbehind : ∀ i, (if n + i < n then conv_buf (n + i) else r (n + i - n)) = r i := by
    intro i
    rw [if_neg (by omega), Nat.add_sub_cancel_left]
  unfold itoa_at
  rw [hr, Option.map_some]
  refine ⟨_, rfl, fun i hi => if_pos hi, ⟨hw.size, fun i hi => ?_⟩, ?_⟩
  · exact (hbehind i).trans (hw.get i hi)
  · exact (hbehind _).trans hend

/-- A 32-bit number has at most eight hexadecimal digits. -/
theorem length_numeral_hex {value : ℕ} (hv : value < 4294967296) :
    (numeral 16 value).length ≤ 8 := by
  unfold numeral
  split
  · decide
  · rw [List.length_reverse, List.length_map, Nat.digits_length_le_iff (by omega)]
    omega

/-- The padding loop stores zeros up to index 8. -/
theorem pad_zeros_apply {fuel i : ℕ} (hfuel : 8 ≤ i + fuel) (conv_buf : ℕ → UInt8) (j : ℕ) :
    pad_zeros fuel i conv_buf j = if i ≤ j ∧ j < 8 then 0x30 else conv_buf j := by
  induction fuel generalizing i conv_buf with
  | zero =>
      rw [pad_zeros, if_neg (by omega)]
  | succ fuel ih =>
      rw [pad_zeros]
      by_cases hi : i < 8
      · rw [if_pos hi, ih (by omega), Function.update_apply]
        by_cases hij : j = i
        · rw [if_neg (by omega), if_pos hij, if_pos (by omega)]
        · rw [if_neg hij]
          by_cases hin : i ≤ j ∧ j < 8
          · rw [if_pos (by omega), if_pos hin]
          · rw [if_neg (by omega), if_neg hin]
      · rw [if_neg hi, if_neg (by omega)]

/-- The eight digits of `%#x`. -/
def eight_digits (value : ℕ) : List UInt8 :=
  List.replicate (8 - (numeral 16 value).length) 0x30 ++ numeral 16 value

/-- **The zeros before `conv_buf[8]` and the digits behind it are one string.** -/
theorem hex_text_alternate {value : ℕ} (hv : value < 4294967296) (conv_buf : ℕ → UInt8) :
    hex_text true value conv_buf = some (eight_digits value) := by
  have hradix : 2 ≤ 16 ∧ 16 ≤ 36 := by decide
  have hlen := length_numeral_hex hv
  have hzero := zero_notMem_numeral hradix hv
  obtain ⟨r, hr, -, hw, hend⟩ := itoa_at_eq hradix hv 8 conv_buf
  have hstart : strlen (fun i => r (8 + i)) = (numeral 16 value).length :=
    strlen_written hw hend hzero (by unfold ADDRESS_SPACE; omega)
  have hbyte : ∀ i, pad_zeros 8 (numeral 16 value).length r ((numeral 16 value).length + i)
      = if (numeral 16 value).length + i < 8 then 0x30 else r ((numeral 16 value).length + i) := by
    intro i
    rw [pad_zeros_apply (by omega)]
    simp only [Nat.le_add_right, true_and]
  unfold hex_text
  rw [if_neg (by decide)]
  replace hr : itoa_at 8 value conv_buf (16 : Int) = some r := hr
  rw [hr, Option.map_some, hstart]
  congr 1
  apply string_at_written (n := 8)
  · unfold eight_digits
    refine ⟨by rw [List.length_append, List.length_replicate]; omega, fun i hi => ?_⟩
    rw [List.length_append, List.length_replicate] at hi
    rw [hbyte]
    by_cases hpad : (numeral 16 value).length + i < 8
    · rw [if_pos hpad, List.getElem_append_left (by rw [List.length_replicate]; omega),
        List.getElem_replicate]
    · have hplace : (numeral 16 value).length + i
          = 8 + (i - (8 - (numeral 16 value).length)) := by omega
      rw [if_neg hpad, List.getElem_append_right (by rw [List.length_replicate]; omega), hplace]
      simp only [List.length_replicate]
      exact hw.get _ (by omega)
  · rw [hbyte, if_neg (by omega), Nat.add_comm]
    exact hend
  · unfold eight_digits
    intro hmem
    rcases List.mem_append.mp hmem with hmem | hmem
    · exact absurd (List.eq_of_mem_replicate hmem) (by decide)
    · exact hzero hmem
  · decide

theorem lookup_zero : lookup 0 = 0x30 := (lookup_eq_zero_digit (by decide)).mpr rfl

/-- Zeros on the left change neither the digits nor the value. -/
theorem eight_digits_spec {value : ℕ} (hv : value < 4294967296) :
    (eight_digits value).length = 8 ∧
      (∀ d, d ∈ eight_digits value → ∃ n, n < 16 ∧ d = lookup n) ∧
      positional_value 16 (eight_digits value) = value := by
  have hlen := length_numeral_hex hv
  have hspec := numeral_spec (by decide : 2 ≤ 16 ∧ 16 ≤ 36) hv
  have hdigit : digit_value 0x30 = 0 := by
    rw [← lookup_zero]
    exact digit_value_lookup (by decide)
  unfold eight_digits
  refine ⟨by rw [List.length_append, List.length_replicate]; omega, fun d hd => ?_, ?_⟩
  · rcases List.mem_append.mp hd with hd | hd
    · exact ⟨0, by decide, (List.eq_of_mem_replicate hd).trans lookup_zero.symm⟩
    · exact hspec.digits d hd
  · have hvalue := hspec.value_eq
    unfold positional_value at hvalue ⊢
    rw [List.reverse_append, List.reverse_replicate, List.map_append, List.map_replicate, hdigit,
      Nat.ofDigits_append_replicate_zero, hvalue]

/-- The negation of a negative `int32_t` as `uint32_t`: it is exact also for the smallest one. -/
theorem negated {value : Int} (h : -2147483648 ≤ value ∧ value < 0) :
    u32 (i32 (-value)) = (-value).toNat := by
  have hcast : -value = ((-value).toNat : Int) := by omega
  rw [hcast, u32_i32_of_lt (by omega), Int.toNat_natCast]

theorem i32_range (n : ℕ) : -2147483648 ≤ i32 (n : Int) ∧ i32 (n : Int) ≤ 2147483647 := by
  unfold i32
  rw [Int.bmod_def]
  omega

/-- **The digits behind a minus sign.** -/
theorem signed_text_negative {value : Int} (h : -2147483648 ≤ value ∧ value < 0)
    (conv_buf : ℕ → UInt8) :
    signed_text value conv_buf = some (0x2D :: numeral 10 (-value).toNat) := by
  have hradix : 2 ≤ 10 ∧ 10 ≤ 36 := by decide
  have hv : (-value).toNat < 4294967296 := by omega
  have hlen := (numeral_spec hradix hv).length_le
  obtain ⟨r, hr, hbefore, hw, hend⟩ :=
    itoa_at_eq hradix hv 1 (Function.update conv_buf 0 0x2D)
  have hsign : r 0 = 0x2D := (hbefore 0 Nat.zero_lt_one).trans (Function.update_self _ _ _)
  replace hr : itoa_at 1 (-value).toNat (Function.update conv_buf 0 0x2D) (10 : Int) = some r := hr
  unfold signed_text
  rw [if_pos h.2, negated h, hr, Option.map_some]
  congr 1
  apply string_at_written (n := (numeral 10 (-value).toNat).length + 1)
  · refine ⟨rfl, fun i hi => ?_⟩
    cases i with
    | zero => exact hsign
    | succ i =>
        rw [List.length_cons] at hi
        rw [List.getElem_cons_succ, ← hw.get i (by omega), Nat.add_comm]
  · rw [Nat.add_comm]
    exact hend
  · intro hmem
    rcases List.mem_cons.mp hmem with hmem | hmem
    · exact absurd hmem (by decide)
    · exact zero_notMem_numeral hradix hv hmem
  · unfold ADDRESS_SPACE
    omega

theorem signed_text_nonneg {value : Int} (h : 0 ≤ value ∧ value ≤ 2147483647)
    (conv_buf : ℕ → UInt8) : signed_text value conv_buf = some (numeral 10 value.toNat) := by
  have hcast : value = (value.toNat : Int) := by omega
  have hu : u32 value = value.toNat := by
    rw [hcast, u32_of_lt (by omega), Int.toNat_natCast]
  unfold signed_text
  rw [if_neg (by omega), hu]
  exact itoa_text (by decide : 2 ≤ 10 ∧ 10 ≤ 36) (by omega) conv_buf

/-! ## One conversion -/

section

variable {args : ℕ → ℕ} {memory : ℕ → UInt8} {conv_buf : ℕ → ℕ → UInt8}

/-- The switch at a character stays there and prints a text. -/
def Emits (args : ℕ → ℕ) (memory : ℕ → UInt8) (conv_buf : ℕ → ℕ → UInt8) (alternate : Bool)
    (c : UInt8) (arg : ℕ) (piece : List UInt8) : Prop :=
  ∀ format fuel i, format i = c →
    format_char_switch format args memory conv_buf (fuel + 1) alternate i arg
      = some (i, if takes_argument c then arg + 1 else arg, piece)

theorem emits_hex {arg : ℕ} (harg : args arg < 4294967296) (alternate : Bool) :
    ∃ piece, Converts memory alternate 0x78 (args arg) piece ∧
      Emits args memory conv_buf alternate 0x78 arg piece := by
  cases alternate with
  | false =>
      have htext : hex_text false (args arg) (conv_buf arg) = some (numeral 16 (args arg)) :=
        itoa_text (by decide : 2 ≤ 16 ∧ 16 ≤ 36) harg (conv_buf arg)
      refine ⟨_, numeral_spec (by decide) harg, fun format fuel i hc => ?_⟩
      rw [format_char_switch, hc, if_neg (by decide), if_neg (by decide), if_pos rfl, htext]
      rfl
  | true =>
      refine ⟨_, eight_digits_spec harg, fun format fuel i hc => ?_⟩
      rw [format_char_switch, hc, if_neg (by decide), if_neg (by decide), if_pos rfl,
        hex_text_alternate harg]
      rfl

theorem emits_unsigned {arg : ℕ} (harg : args arg < 4294967296) (alternate : Bool) :
    ∃ piece, Converts memory alternate 0x75 (args arg) piece ∧
      Emits args memory conv_buf alternate 0x75 arg piece := by
  have htext : unsigned_text (args arg) (conv_buf arg) = some (numeral 10 (args arg)) :=
    itoa_text (by decide : 2 ≤ 10 ∧ 10 ≤ 36) harg (conv_buf arg)
  refine ⟨_, numeral_spec (by decide) harg, fun format fuel i hc => ?_⟩
  rw [format_char_switch, hc, if_neg (by decide), if_neg (by decide), if_neg (by decide),
    if_pos rfl, htext]
  rfl

theorem emits_signed (arg : ℕ) (alternate : Bool) :
    ∃ piece, Converts memory alternate 0x64 (args arg) piece ∧
      Emits args memory conv_buf alternate 0x64 arg piece := by
  have hrange := i32_range (args arg)
  have hswitch : ∀ piece, signed_text (i32 (args arg)) (conv_buf arg) = some piece →
      Emits args memory conv_buf alternate 0x64 arg piece := by
    intro piece htext format fuel i hc
    rw [format_char_switch, hc, if_neg (by decide), if_neg (by decide), if_neg (by decide),
      if_neg (by decide), if_pos rfl, htext]
    rfl
  by_cases hneg : i32 (args arg : Int) < 0
  · refine ⟨_, ?_, hswitch _ (signed_text_negative ⟨hrange.1, hneg⟩ _)⟩
    have hspec := numeral_spec (by decide : 2 ≤ 10 ∧ 10 ≤ 36)
      (show (-(i32 (args arg : Int))).toNat < 4294967296 by omega)
    simp [Converts, hneg, hspec]
  · refine ⟨_, ?_, hswitch _ (signed_text_nonneg ⟨by omega, hrange.2⟩ _)⟩
    have hspec := numeral_spec (by decide : 2 ≤ 10 ∧ 10 ≤ 36)
      (show (i32 (args arg : Int)).toNat < 4294967296 by omega)
    simp [Converts, hneg, hspec]

/-- **The switch at the end of a conversion prints what the header says**, stays on the
character and takes the argument up. The terminator is no exception. -/
theorem conversion_converts {arg : ℕ} (harg : args arg < 4294967296) (alternate : Bool) {c : UInt8}
    (hhash : c ≠ 0x23) :
    ∃ piece, Converts memory alternate c (args arg) piece ∧
      Emits args memory conv_buf alternate c arg piece := by
  by_cases hx : c = 0x78
  · exact hx ▸ emits_hex harg alternate
  by_cases hu : c = 0x75
  · exact hu ▸ emits_unsigned harg alternate
  by_cases hd : c = 0x64
  · exact hd ▸ emits_signed arg alternate
  by_cases hpercent : c = 0x25
  · refine ⟨[0x25], by simp [Converts, hpercent], fun format fuel i hc => ?_⟩
    simp [format_char_switch, hc, hpercent, takes_argument]
  by_cases hchar : c = 0x63
  · refine ⟨[UInt8.ofNat (args arg)], by simp [Converts, hchar], fun format fuel i hc => ?_⟩
    simp [format_char_switch, hc, hchar, takes_argument]
  by_cases hs : c = 0x73
  · refine ⟨string_at fun i => memory (args arg + i), by simp [Converts, hs],
      fun format fuel i hc => ?_⟩
    simp [format_char_switch, hc, hs, takes_argument]
  -- no conversion: nothing is printed
  refine ⟨[], by simp [Converts, hx, hu, hd, hpercent, hchar, hs], fun format fuel i hc => ?_⟩
  simp [format_char_switch, hc, takes_argument, hx, hu, hd, hpercent, hchar, hs, hhash]

end

/-! ## The walk -/

namespace StringAt

variable {s : ℕ → UInt8} {i : ℕ} {c : UInt8} {cs : List UInt8}

theorem head (h : StringAt s i (c :: cs)) : s i = c := h.get 0 (Nat.zero_lt_succ _)

theorem head_ne_zero (h : StringAt s i (c :: cs)) : c ≠ 0 := by
  intro hc
  exact h.no_terminator (hc ▸ List.mem_cons_self)

theorem tail (h : StringAt s i (c :: cs)) : StringAt s (i + 1) cs where
  get j hj := by
    have hget := h.get (j + 1) (Nat.succ_lt_succ hj)
    rwa [List.getElem_cons_succ, Nat.add_comm j, ← Nat.add_assoc] at hget
  terminator := by
    have hend := h.terminator
    rwa [List.length_cons, Nat.add_comm cs.length, ← Nat.add_assoc] at hend
  no_terminator hmem := h.no_terminator (List.mem_cons_of_mem _ hmem)

end StringAt

theorem stringAt_c_str {text : List UInt8} (h : (0 : UInt8) ∉ text) :
    StringAt (c_str text) 0 text where
  get j hj := by
    rw [Nat.zero_add]
    exact c_str_eq hj
  terminator := by
    rw [Nat.zero_add]
    exact c_str_end (Nat.le_refl _)
  no_terminator := h

section

variable (format : ℕ → UInt8) (args : ℕ → ℕ) (memory : ℕ → UInt8) (conv_buf : ℕ → ℕ → UInt8)

/-- The rest of the loop, outside a conversion or inside one. -/
def resume (inner fuel : ℕ) : Option Bool → ℕ → ℕ → Option (ℕ × List UInt8)
  | none, buf, esp => printf_loop format args memory conv_buf fuel buf esp
  | some alternate, buf, esp =>
      (format_char_switch format args memory conv_buf inner alternate buf esp).bind fun r =>
        (printf_loop format args memory conv_buf fuel (r.1 + 1) r.2.1).map fun rest =>
          (rest.1, r.2.2 ++ rest.2)

end

/-- Wherever the text stands, the loop prints `out` and ends at the terminator, or one behind
it when the text ends inside a conversion and the next byte is a terminator as well. -/
def WalksOver (args : ℕ → ℕ) (memory : ℕ → UInt8) (conv_buf : ℕ → ℕ → UInt8) (state : Option Bool)
    (text : List UInt8) (arg : ℕ) (out : List UInt8) : Prop :=
  ∀ format inner fuel i, StringAt format i text → text.length < inner → text.length < fuel →
    (ends_open state.isSome text = true → format (i + text.length + 1) = 0) →
    resume format args memory conv_buf inner fuel state i arg
      = some (i + text.length + (ends_open state.isSome text).toNat, out)

section

variable {args : ℕ → ℕ} {memory : ℕ → UInt8} {conv_buf : ℕ → ℕ → UInt8} {arg : ℕ} {c : UInt8}
  {cs out : List UInt8}

theorem walksOver_nil : WalksOver args memory conv_buf none [] arg [] := by
  intro format inner fuel i hs hinner hfuel hbehind
  obtain ⟨fuel, rfl⟩ := Nat.exists_eq_add_one.mpr hfuel
  have hend := hs.terminator
  rw [List.length_nil, Nat.add_zero] at hend
  rw [resume, printf_loop, if_pos hend]
  rfl

/-- **The terminator inside a conversion is stepped over.** -/
theorem walksOver_open (harg : args arg < 4294967296) (alternate : Bool) :
    WalksOver args memory conv_buf (some alternate) [] arg [] := by
  intro format inner fuel i hs hinner hfuel hbehind
  obtain ⟨inner, rfl⟩ := Nat.exists_eq_add_one.mpr hinner
  obtain ⟨fuel, rfl⟩ := Nat.exists_eq_add_one.mpr hfuel
  have hend := hs.terminator
  rw [List.length_nil, Nat.add_zero] at hend
  obtain ⟨piece, hconverts, hemits⟩ : ∃ piece, Converts memory alternate 0 (args arg) piece ∧
      Emits args memory conv_buf alternate 0 arg piece :=
    conversion_converts harg alternate (by decide)
  obtain rfl : piece = [] := hconverts
  have hnext : format (i + 1) = 0 := hbehind rfl
  rw [resume, hemits format inner i hend, Option.bind_some, printf_loop, if_pos hnext]
  rfl

/-- The walk from the next character on. -/
theorem WalksOver.next {state : Option Bool} (h : WalksOver args memory conv_buf state cs arg out)
    {format : ℕ → UInt8} {inner fuel i : ℕ} (hs : StringAt format i (c :: cs))
    (hinner : cs.length < inner) (hfuel : cs.length < fuel)
    (hbehind : ends_open state.isSome cs = true → format (i + (c :: cs).length + 1) = 0) :
    resume format args memory conv_buf inner fuel state (i + 1) arg
      = some (i + (c :: cs).length + (ends_open state.isSome cs).toNat, out) := by
  have hlen : i + (c :: cs).length = i + 1 + cs.length := by
    rw [List.length_cons]
    omega
  rw [hlen] at hbehind ⊢
  exact h format inner fuel (i + 1) hs.tail hinner hfuel hbehind

theorem walksOver_percent (hspace : cs.length < ADDRESS_SPACE)
    (h : WalksOver args memory conv_buf (some false) cs arg out) :
    WalksOver args memory conv_buf none (0x25 :: cs) arg out := by
  intro format inner fuel i hs hinner hfuel hbehind
  obtain ⟨fuel, rfl⟩ := Nat.exists_eq_add_one.mpr (Nat.zero_lt_of_lt hfuel)
  rw [resume, printf_loop, if_neg (hs.head ▸ hs.head_ne_zero), if_pos hs.head]
  exact h.next hs hspace (Nat.lt_of_succ_lt_succ hfuel) hbehind

theorem walksOver_literal (hc : c ≠ 0x25) (h : WalksOver args memory conv_buf none cs arg out) :
    WalksOver args memory conv_buf none (c :: cs) arg (c :: out) := by
  intro format inner fuel i hs hinner hfuel hbehind
  obtain ⟨fuel, rfl⟩ := Nat.exists_eq_add_one.mpr (Nat.zero_lt_of_lt hfuel)
  have hopen : ends_open false (c :: cs) = ends_open false cs := by
    rw [ends_open, decide_eq_false hc]
  have hwalk := h.next hs (Nat.lt_of_succ_lt hinner) (Nat.lt_of_succ_lt_succ hfuel)
    (hopen ▸ hbehind)
  rw [resume] at hwalk
  rw [resume, printf_loop, hs.head, if_neg hs.head_ne_zero, if_neg hc, hwalk]
  simp only [Option.isSome_none, hopen, Option.map_some]

theorem walksOver_hash {alternate : Bool}
    (h : WalksOver args memory conv_buf (some true) cs arg out) :
    WalksOver args memory conv_buf (some alternate) (0x23 :: cs) arg out := by
  intro format inner fuel i hs hinner hfuel hbehind
  obtain ⟨inner, rfl⟩ := Nat.exists_eq_add_one.mpr (Nat.zero_lt_of_lt hinner)
  rw [resume, format_char_switch, hs.head, if_neg (by decide), if_pos rfl]
  exact h.next hs (Nat.lt_of_succ_lt_succ hinner) (Nat.lt_of_succ_lt hfuel) hbehind

theorem walksOver_conversion {alternate : Bool} {piece : List UInt8} (hc : c ≠ 0x23)
    (hemits : Emits args memory conv_buf alternate c arg piece)
    (h : WalksOver args memory conv_buf none cs (if takes_argument c then arg + 1 else arg) out) :
    WalksOver args memory conv_buf (some alternate) (c :: cs) arg (piece ++ out) := by
  intro format inner fuel i hs hinner hfuel hbehind
  obtain ⟨inner, rfl⟩ := Nat.exists_eq_add_one.mpr (Nat.zero_lt_of_lt hinner)
  have hopen : ends_open true (c :: cs) = ends_open false cs := by
    rw [ends_open, decide_eq_false hc]
  have hwalk := h.next hs (Nat.lt_of_succ_lt hinner) (Nat.lt_of_succ_lt hfuel) (hopen ▸ hbehind)
  rw [resume] at hwalk
  rw [resume, hemits format inner i hs.head, Option.bind_some, hwalk]
  simp only [Option.isSome_none, Option.isSome_some, hopen, Option.map_some]

end

/-- **The loop prints the text of the format.** -/
theorem prints_walksOver {args : ℕ → ℕ} (hargs : ∀ i, args i < 4294967296) (memory : ℕ → UInt8)
    (conv_buf : ℕ → ℕ → UInt8) {text : List UInt8} (hspace : text.length < ADDRESS_SPACE)
    (state : Option Bool) (arg : ℕ) :
    ∃ out, Prints args memory state text arg out ∧
      WalksOver args memory conv_buf state text arg out := by
  induction text generalizing state arg with
  | nil =>
      cases state with
      | none => exact ⟨[], rfl, walksOver_nil⟩
      | some alternate => exact ⟨[], rfl, walksOver_open (hargs arg) alternate⟩
  | cons c cs ih =>
      rw [List.length_cons] at hspace
      replace ih := ih (by omega)
      cases state with
      | none =>
          by_cases hc : c = 0x25
          · subst hc
            obtain ⟨out, hprints, hwalk⟩ := ih (some false) arg
            refine ⟨out, ?_, walksOver_percent (by omega) hwalk⟩
            rwa [Prints, if_pos rfl]
          · obtain ⟨out, hprints, hwalk⟩ := ih none arg
            refine ⟨c :: out, ?_, walksOver_literal hc hwalk⟩
            rw [Prints, if_neg hc]
            exact ⟨out, rfl, hprints⟩
      | some alternate =>
          by_cases hc : c = 0x23
          · subst hc
            obtain ⟨out, hprints, hwalk⟩ := ih (some true) arg
            refine ⟨out, ?_, walksOver_hash hwalk⟩
            rwa [Prints, if_pos rfl]
          · obtain ⟨piece, hconverts, hemits⟩ := conversion_converts (hargs arg) alternate hc
            obtain ⟨out, hprints, hwalk⟩ := ih none (if takes_argument c then arg + 1 else arg)
            refine ⟨piece ++ out, ?_, walksOver_conversion hc hemits hwalk⟩
            rw [Prints, if_neg hc]
            exact ⟨piece, out, rfl, hconverts, hprints⟩

/-! ## The value returned -/

section

variable {args : ℕ → ℕ} {memory : ℕ → UInt8} {conv_buf : ℕ → ℕ → UInt8} {text out : List UInt8}

theorem printf_walked (h : WalksOver args memory conv_buf none text 0 out)
    (hspace : text.length < ADDRESS_SPACE) {format : ℕ → UInt8} (hs : StringAt format 0 text)
    (hbehind : ends_open false text = true → format (text.length + 1) = 0) :
    printf format args memory conv_buf
      = some (i32 ((text.length + (ends_open false text).toNat : ℕ) : Int), out) := by
  have hwalk := h format ADDRESS_SPACE ADDRESS_SPACE 0 hs hspace hspace
  rw [Nat.zero_add] at hwalk
  replace hwalk := hwalk hbehind
  rw [resume] at hwalk
  unfold printf
  rw [hwalk]
  rfl

/-- The length plus one is never the length again, wrapped or not. -/
theorem returned_length {n : ℕ} (h : n < ADDRESS_SPACE) (past : Bool) :
    i32 ((n + past.toNat : ℕ) : Int) = n ↔ past = false ∧ n < 2147483648 := by
  unfold ADDRESS_SPACE at h
  unfold i32
  rw [Int.bmod_def]
  cases past with
  | false =>
      simp only [Bool.toNat_false, Nat.add_zero, true_and]
      split <;> omega
  | true =>
      simp only [Bool.toNat_true, Bool.true_eq_false, false_and, iff_false]
      split <;> omega

/-- **`printf` prints a format and returns its length exactly when the format does not end
inside a conversion**, and the length fits into the `int32_t` it is returned in. -/
theorem printf_prints_iff (hargs : ∀ i, args i < 4294967296) (hzero : (0 : UInt8) ∉ text)
    (hspace : text.length < ADDRESS_SPACE) :
    PrintsFormat args memory conv_buf text
      ↔ ends_open false text = false ∧ text.length < 2147483648 := by
  obtain ⟨out, hprints, hwalk⟩ := prints_walksOver hargs memory conv_buf hspace none 0
  constructor
  · rintro ⟨out', -, hformat⟩
    -- zeros behind the terminator
    have hs := stringAt_c_str hzero
    have hrun := printf_walked hwalk hspace hs fun _ => c_str_end (Nat.le_succ _)
    rw [hformat _ hs, Option.some.injEq, Prod.mk.injEq] at hrun
    exact (returned_length hspace _).mp hrun.1.symm
  · rintro ⟨hopen, hlen⟩
    refine ⟨out, hprints, fun format hs => ?_⟩
    rw [printf_walked hwalk hspace hs fun h => absurd (hopen.symm.trans h) Bool.false_ne_true,
      (returned_length hspace _).mpr ⟨hopen, hlen⟩]

end

/-- The smallest `int32_t`, and 14. -/
def demo_args (i : ℕ) : ℕ := if i = 0 then 2147483648 else 14

/-- `%d=%#x%%`. -/
def demo_format : List UInt8 := [0x25, 0x64, 0x3D, 0x25, 0x23, 0x78, 0x25, 0x25]

/-- The text is `-2147483648=0000000E%`. -/
theorem printf_prints_demo :
    PrintsFormat demo_args (fun _ => 0) (fun _ _ => 0) demo_format ∧
      printf (c_str demo_format) demo_args (fun _ => 0) (fun _ _ => 0)
        = some (8, [0x2D, 0x32, 0x31, 0x34, 0x37, 0x34, 0x38, 0x33, 0x36, 0x34, 0x38, 0x3D, 0x30,
          0x30, 0x30, 0x30, 0x30, 0x30, 0x30, 0x45, 0x25]) := by
  have hargs : ∀ i, demo_args i < 4294967296 := by
    intro i
    unfold demo_args
    split <;> omega
  have hzero : (0 : UInt8) ∉ demo_format := by decide
  have hspace : demo_format.length < ADDRESS_SPACE := by decide
  have hends : ends_open false demo_format = false ∧ demo_format.length < 2147483648 := by decide
  exact ⟨(printf_prints_iff hargs hzero hspace).mpr hends, by decide +kernel⟩

/-- `100%`. -/
def open_format : List UInt8 := [0x31, 0x30, 0x30, 0x25]

/-- The same format with the string `KEY` behind it. -/
def open_format_memory : List UInt8 := open_format ++ [0, 0x4B, 0x45, 0x59]

/-- **The walk goes on behind the terminator**: `100%` prints `100KEY` and returns 8. -/
theorem printf_reads_on :
    ¬ PrintsFormat (fun _ => 0) (fun _ => 0) (fun _ _ => 0) open_format ∧
      StringAt (c_str open_format_memory) 0 open_format ∧
      printf (c_str open_format_memory) (fun _ => 0) (fun _ => 0) (fun _ _ => 0)
        = some (8, [0x31, 0x30, 0x30, 0x4B, 0x45, 0x59]) := by
  have hs : StringAt (c_str open_format_memory) 0 open_format := by
    refine ⟨?_, by decide, by decide⟩
    decide
  have hrun : printf (c_str open_format_memory) (fun _ => 0) (fun _ => 0) (fun _ _ => 0)
      = some (8, [0x31, 0x30, 0x30, 0x4B, 0x45, 0x59]) := by decide +kernel
  refine ⟨?_, hs, hrun⟩
  rintro ⟨out, -, hformat⟩
  have hlen := (hformat _ hs).symm.trans hrun
  rw [Option.some.injEq, Prod.mk.injEq] at hlen
  exact absurd hlen.1 (by decide)

end LinuxLikeOS
