/-
`itoa` and `strrev` of `lib.c`: a number as a string.

The digits come out with the lowest one first and are then reversed in place. The first loop
appends what `Nat.digits` has next, the second one is the swap loop of `Reversal`, and so the
buffer ends up with the numeral of the value. In any radix from 2 to 36 a `uint32_t` has no
more than 32 digits.
-/
import LinuxLikeOS.CLib
import LinuxLikeOS.LineEdit
import LinuxLikeOS.Reversal
import Mathlib.Data.Nat.Digits.Lemmas

set_option autoImplicit false

namespace LinuxLikeOS

open LineEdit Reversal

/-- The digits `itoa` picks from. -/
def lookup : ℕ → UInt8 :=
  c_str ("0123456789ABCDEFGHIJKLMNOPQRSTUVWXYZ".toList.map fun c => UInt8.ofNat c.toNat)

/-- The loop of `strrev`. Every iteration brings the two indices closer. -/
def strrev_loop : ℕ → ℕ → ℕ → (ℕ → UInt8) → ℕ → UInt8
  | 0, _, _, s => s
  | fuel + 1, beg, «end», s =>
      if beg < «end» then
        let tmp := s «end»
        strrev_loop fuel (beg + 1) («end» - 1)
          (Function.update (Function.update s «end» (s beg)) beg tmp)
      else s

/-- `end` is an `int32_t`. When it is negative, no index is below it. -/
def strrev (s : ℕ → UInt8) : ℕ → UInt8 :=
  let «end» := (i32 (u32 ((strlen s : Int) - 1))).toNat
  strrev_loop «end» 0 «end» s

/-- The loop of `itoa`, with the index that `newbuf` points to; `none` when it has not ended
after `fuel` iterations. -/
def itoa_loop (radix : ℕ) : ℕ → ℕ → ℕ → (ℕ → UInt8) → Option (ℕ × (ℕ → UInt8))
  | 0, _, _, _ => none
  | fuel + 1, newval, newbuf, buf =>
      if newval > 0 then
        itoa_loop radix fuel (newval / radix) (newbuf + 1)
          (Function.update buf newbuf (lookup (newval % radix)))
      else some (newbuf, buf)

/-- The buffer after `itoa`; `none` when the loop does not end, or divides by zero. -/
def itoa (value : ℕ) (buf : ℕ → UInt8) (radix : Int) : Option (ℕ → UInt8) :=
  if value = 0 then some (Function.update (Function.update buf 0 0x30) 1 0)
  else if u32 radix = 0 then none
  else
    (itoa_loop (u32 radix) ADDRESS_SPACE value 0 buf).map fun r =>
      strrev (Function.update r.2 r.1 0)

/-! ## The swap loop -/

theorem strrev_loop_mirrors {a b : ℕ → UInt8} {n m : ℕ} (h : Mirrored a b n m) {fuel : ℕ}
    (hfuel : n - 1 - m ≤ m + fuel) :
    ∃ m', Mirrored a (strrev_loop fuel m (n - 1 - m) b) n m' ∧ n - 1 - m' ≤ m' := by
  induction fuel generalizing m b with
  | zero => exact ⟨m, h, by omega⟩
  | succ fuel ih =>
      rw [strrev_loop]
      by_cases hm : m < n - 1 - m
      · rw [if_pos hm]
        have hend : n - 1 - m - 1 = n - 1 - (m + 1) := by omega
        dsimp only
        rw [hend]
        exact ih (h.exchange hm) (by omega)
      · rw [if_neg hm]
        exact ⟨m, h, by omega⟩

/-- The length of a string that stands in a buffer. -/
theorem strlen_written {s : ℕ → UInt8} {n : ℕ} {text : List UInt8} (hw : Written s n text)
    (hend : s n = 0) (hzero : (0 : UInt8) ∉ text) (hn : n ≤ ADDRESS_SPACE) : strlen s = n := by
  have hsize := hw.size
  apply strlen_eq hn hend
  intro i hi hz
  rw [hw.get i (hsize ▸ hi)] at hz
  exact hzero (hz ▸ List.getElem_mem _)

/-- **`strrev` reverses a string in place.** -/
theorem strrev_written {s : ℕ → UInt8} {n : ℕ} {text : List UInt8} (hw : Written s n text)
    (hend : s n = 0) (hzero : (0 : UInt8) ∉ text) (hn : n < 2147483648) :
    Written (strrev s) n text.reverse ∧ ∀ i, n ≤ i → strrev s i = s i := by
  have hsize := hw.size
  have hlen := strlen_written hw hend hzero (by unfold ADDRESS_SPACE; omega)
  have hlast : (i32 (u32 ((strlen s : Int) - 1))).toNat = n - 1 := by
    rw [hlen]
    by_cases h0 : n = 0
    · subst h0
      decide
    · have hu : u32 ((n : Int) - 1) = n - 1 := by
        unfold u32
        omega
      rw [hu, i32_of_lt (by omega), Int.toNat_natCast]
  have hfuel : n - 1 - 0 ≤ 0 + (n - 1) := by omega
  obtain ⟨m, hm, hmet⟩ := strrev_loop_mirrors (Mirrored.start s n) hfuel
  unfold strrev
  rw [hlast]
  refine ⟨⟨by rw [List.length_reverse, hsize], fun i hi => ?_⟩, hm.behind⟩
  rw [List.length_reverse] at hi
  have hget := hm.whole hmet (i := i) (by omega)
  rw [Nat.sub_zero] at hget
  rw [hget, hw.get (n - 1 - i) (by omega), List.getElem_reverse]
  simp only [hsize]

/-! ## The digits -/

theorem lookup_ne_zero {d : ℕ} (h : d < 36) : lookup d ≠ 0 := by
  have hall : ∀ d : Fin 36, lookup d.val ≠ 0 := by decide +kernel
  exact hall ⟨d, h⟩

theorem lookup_eq_zero_digit {d : ℕ} (h : d < 36) : lookup d = 0x30 ↔ d = 0 := by
  have hall : ∀ d : Fin 36, lookup d.val = 0x30 ↔ d.val = 0 := by decide +kernel
  exact hall ⟨d, h⟩

/-- The digits of a number as the loop appends them, lowest one first. -/
theorem itoa_loop_written {radix : ℕ} (h : 1 < radix) {fuel newval n : ℕ} {buf : ℕ → UInt8}
    {text : List UInt8} (hfuel : (radix.digits newval).length < fuel) (hw : Written buf n text) :
    ∃ n' buf', itoa_loop radix fuel newval n buf = some (n', buf') ∧
      Written buf' n' (text ++ (radix.digits newval).map lookup) ∧ ∀ i, n' ≤ i → buf' i = buf i := by
  induction fuel generalizing newval n buf text with
  | zero => omega
  | succ fuel ih =>
      rw [itoa_loop]
      by_cases hval : newval > 0
      · rw [Nat.digits_def' h hval, List.length_cons] at hfuel
        have hrest : (radix.digits (newval / radix)).length < fuel := by omega
        obtain ⟨n', buf', hloop, hwritten, hbehind⟩ :=
          ih hrest (hw.concat (lookup (newval % radix)))
        refine ⟨n', buf', by rw [if_pos hval, hloop], ?_, fun i hi => ?_⟩
        · rw [Nat.digits_def' h hval, List.map_cons]
          rwa [List.append_assoc, List.singleton_append] at hwritten
        · have hsize := hwritten.size
          simp only [List.length_append, List.length_singleton] at hsize
          have hold := hw.size
          rw [hbehind i hi, Function.update_of_ne (by omega)]
      · obtain rfl : newval = 0 := by omega
        refine ⟨n, buf, if_neg hval, ?_, fun _ _ => rfl⟩
        rwa [Nat.digits_zero, List.map_nil, List.append_nil]

/-! ## The numeral -/

/-- The numeral of a value: its digits with the highest one first. -/
def numeral (radix value : ℕ) : List UInt8 :=
  if value = 0 then [0x30] else ((radix.digits value).map lookup).reverse

/-- The place of a character in the table. -/
def digit_value (c : UInt8) : ℕ := ((List.range 36).map lookup).idxOf c

/-- The value of a string of digits, each weighted by its position. -/
def positional_value (radix : ℕ) (text : List UInt8) : ℕ :=
  Nat.ofDigits radix (text.reverse.map digit_value)

theorem digit_value_lookup {d : ℕ} (h : d < 36) : digit_value (lookup d) = d := by
  have hall : ∀ d : Fin 36, digit_value (lookup d.val) = d.val := by decide +kernel
  exact hall ⟨d, h⟩

/-- A string of digits below the radix, without a leading zero, and with a value. -/
structure Numeral (radix value : ℕ) (text : List UInt8) : Prop where
  ne_nil : text ≠ []
  length_le : text.length ≤ 32
  digits : ∀ c, c ∈ text → ∃ d, d < radix ∧ c = lookup d
  leading : text.head? = some (lookup 0) → value = 0 ∧ text.length = 1
  value_eq : positional_value radix text = value

theorem digits_lt {radix value d : ℕ} (h : 2 ≤ radix ∧ radix ≤ 36) (hd : d ∈ radix.digits value) :
    d < radix := Nat.digits_lt_base (by omega) hd

/-- A `uint32_t` has at most 32 digits. -/
theorem length_digits_le {radix value : ℕ} (h : 2 ≤ radix) (hv : value < 4294967296) :
    (radix.digits value).length ≤ 32 := by
  rw [Nat.digits_length_le_iff (by omega)]
  have hpow : 2 ^ 32 ≤ radix ^ 32 := Nat.pow_le_pow_left h 32
  omega

theorem numeral_spec {radix value : ℕ} (h : 2 ≤ radix ∧ radix ≤ 36) (hv : value < 4294967296) :
    Numeral radix value (numeral radix value) := by
  have hzero : lookup 0 = 0x30 := (lookup_eq_zero_digit (by decide)).mpr rfl
  unfold numeral
  by_cases h0 : value = 0
  · subst h0
    rw [if_pos rfl]
    refine ⟨by simp, by simp, fun c hc => ?_, fun _ => ⟨rfl, rfl⟩, ?_⟩
    · rw [List.mem_singleton] at hc
      exact ⟨0, by omega, hc.trans hzero.symm⟩
    · have hdigit : digit_value 0x30 = 0 := by
        rw [← hzero]
        exact digit_value_lookup (by decide)
      unfold positional_value
      rw [List.reverse_singleton, List.map_singleton, hdigit, Nat.ofDigits_singleton]
  · rw [if_neg h0]
    have hne : radix.digits value ≠ [] := Nat.digits_ne_nil_iff_ne_zero.mpr h0
    refine ⟨by simpa using hne, ?_, fun c hc => ?_, fun hhead => ?_, ?_⟩
    · rw [List.length_reverse, List.length_map]
      exact length_digits_le h.1 hv
    · rw [List.mem_reverse] at hc
      obtain ⟨d, hd, rfl⟩ := List.mem_map.mp hc
      exact ⟨d, digits_lt h hd, rfl⟩
    · -- the highest digit is not zero
      have hlast := Nat.getLast_digit_ne_zero radix h0
      have hlt := digits_lt h (List.getLast_mem (Nat.digits_ne_nil_iff_ne_zero.mpr h0))
      rw [List.head?_reverse, List.getLast?_map, List.getLast?_eq_some_getLast hne, Option.map_some,
        Option.some.injEq, hzero] at hhead
      exact absurd ((lookup_eq_zero_digit (by omega)).mp hhead) hlast
    · have hback : (radix.digits value).map (digit_value ∘ lookup) = radix.digits value := by
        rw [List.map_congr_left (g := id), List.map_id]
        intro d hd
        have hlt := digits_lt h hd
        exact digit_value_lookup (by omega)
      unfold positional_value
      rw [List.reverse_reverse, List.map_map, hback, Nat.ofDigits_digits]

/-! ## `itoa` -/

/-- The text of a string that stands in a buffer. -/
theorem string_at_written {s : ℕ → UInt8} {n : ℕ} {text : List UInt8} (hw : Written s n text)
    (hend : s n = 0) (hzero : (0 : UInt8) ∉ text) (hn : n ≤ ADDRESS_SPACE) :
    string_at s = text := by
  have hlen := strlen_written hw hend hzero hn
  unfold string_at
  apply List.ext_getElem
  · rw [List.length_map, List.length_range, hlen, hw.size]
  · intro i hi hi'
    rw [List.getElem_map, List.getElem_range, hw.get i hi']

/-- **`itoa` leaves the numeral in the buffer**, and nothing behind its terminator. -/
theorem itoa_eq {radix value : ℕ} (h : 2 ≤ radix ∧ radix ≤ 36) (hv : value < 4294967296)
    (buf : ℕ → UInt8) :
    ∃ r, itoa value buf radix = some r ∧ string_at r = numeral radix value ∧
      Written r (numeral radix value).length (numeral radix value) ∧
      r (numeral radix value).length = 0 ∧ ∀ i, (numeral radix value).length < i → r i = buf i := by
  have hradix : u32 (radix : Int) = radix := u32_of_lt (by omega)
  unfold itoa numeral
  by_cases h0 : value = 0
  · rw [if_pos h0, if_pos h0]
    have hw : Written (Function.update (Function.update buf 0 0x30) 1 0) 1 [0x30] :=
      ((Written.nil buf).concat 0x30).update (Nat.le_refl 1) 0
    have hend : Function.update (Function.update buf 0 (0x30 : UInt8)) 1 0 1 = 0 :=
      Function.update_self _ _ _
    refine ⟨_, rfl, string_at_written hw hend (by decide) (by decide), hw, hend, fun i hi => ?_⟩
    rw [List.length_singleton] at hi
    rw [Function.update_of_ne (by omega), Function.update_of_ne (by omega)]
  · rw [if_neg h0, if_neg h0, hradix, if_neg (by omega)]
    have hlen := length_digits_le h.1 hv
    have hfuel : (radix.digits value).length < ADDRESS_SPACE := by
      unfold ADDRESS_SPACE
      omega
    obtain ⟨n, buf', hloop, hw, hbehind⟩ := itoa_loop_written (by omega) hfuel (Written.nil buf)
    rw [List.nil_append] at hw
    have hsize := hw.size
    rw [List.length_map] at hsize
    have hzero : (0 : UInt8) ∉ (radix.digits value).map lookup := by
      intro hmem
      obtain ⟨d, hd, hz⟩ := List.mem_map.mp hmem
      have hlt := digits_lt h hd
      exact lookup_ne_zero (by omega) hz
    have hend : Function.update buf' n 0 n = 0 := Function.update_self _ _ _
    obtain ⟨hrev, hkept⟩ := strrev_written (hw.update (Nat.le_refl n) 0) hend hzero (by omega)
    have hend' : strrev (Function.update buf' n 0) n = 0 := (hkept n (Nat.le_refl n)).trans hend
    rw [hloop, Option.map_some]
    refine ⟨_, rfl, string_at_written hrev hend' (by rwa [List.mem_reverse]) ?_, ?_⟩
    · unfold ADDRESS_SPACE
      omega
    · rw [List.length_reverse, List.length_map, ← hsize]
      refine ⟨hrev, hend', fun i hi => ?_⟩
      rw [hkept i (by omega), Function.update_of_ne (by omega), hbehind i (by omega)]

/-- **Every `uint32_t` in every radix from 2 to 36 is written as its numeral.** Different values
give different strings. -/
theorem itoa_numeral {radix value : ℕ} (h : 2 ≤ radix ∧ radix ≤ 36) (hv : value < 4294967296)
    (buf : ℕ → UInt8) :
    ∃ r, itoa value buf radix = some r ∧ Numeral radix value (string_at r) ∧
      r (string_at r).length = 0 ∧
      ∀ value' buf' r', value' < 4294967296 → itoa value' buf' radix = some r' →
        string_at r' = string_at r → value' = value := by
  obtain ⟨r, hr, htext, -, hend, -⟩ := itoa_eq h hv buf
  have hspec := numeral_spec h hv
  refine ⟨r, hr, htext ▸ hspec, htext ▸ hend, fun value' buf' r' hv' hr' hsame => ?_⟩
  obtain ⟨r'', hr'', htext', -⟩ := itoa_eq h hv' buf'
  obtain rfl : r'' = r' := Option.some.inj (hr''.symm.trans hr')
  have hspec' := numeral_spec h hv'
  rw [← hspec.value_eq, ← hspec'.value_eq, ← htext, ← htext', hsame]

/-- The largest value in the largest radix. -/
theorem itoa_numeral_demo : ∃ r, itoa 4294967295 (fun _ => 0) (36 : ℕ) = some r ∧
    Numeral 36 4294967295 (string_at r) ∧ string_at r = [0x31, 0x5A, 0x31, 0x34, 0x31, 0x5A, 0x33] := by
  have hradix : 2 ≤ 36 ∧ 36 ≤ 36 := by decide
  have hvalue : 4294967295 < 4294967296 := by decide
  obtain ⟨r, hr, hspec, -, -⟩ := itoa_numeral hradix hvalue fun _ => 0
  refine ⟨r, hr, hspec, ?_⟩
  have htext : (itoa 4294967295 (fun _ => 0) (36 : ℕ)).map string_at
      = some [0x31, 0x5A, 0x31, 0x34, 0x31, 0x5A, 0x33] := by decide +kernel
  rw [hr, Option.map_some, Option.some.injEq] at htext
  exact htext

end LinuxLikeOS
