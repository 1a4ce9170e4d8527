import Mathlib.Data.List.Basic
import Mathlib.Tactic.IntervalCases
import Showreel.Colour
import Showreel.Proofs.Fallible

/-!
# Colours in hexadecimal

The channels of a colour in hexadecimal are integers of two characters each, and integers may stand
among blanks and behind a sign. So what is read from a text is not always a colour: a channel is
below zero where its two characters are a minus sign and a digit. All other channels that can be
read are those of a colour, and a text with a channel that cannot be read is a bad value.
-/

namespace Showreel

namespace Text

/-! ## Integers of two characters -/

/-- What up to two characters say in base sixteen: two digits, or one digit with nothing, a blank or
a sign beside it. -/
inductive Says : List Char → Int → Prop
  | digits {c d : Char} {m n : Nat} :
      digitOf? 16 c = some m → digitOf? 16 d = some n → Says [c, d] (m * 16 + n)
  | digit {d : Char} {n : Nat} : digitOf? 16 d = some n → Says [d] n
  | behindBlank {c d : Char} {n : Nat} : isBlank c → digitOf? 16 d = some n → Says [c, d] n
  | aheadOfBlank {c d : Char} {n : Nat} : isBlank c → digitOf? 16 d = some n → Says [d, c] n
  | positive {d : Char} {n : Nat} : digitOf? 16 d = some n → Says ['+', d] n
  | negative {d : Char} {n : Nat} : digitOf? 16 d = some n → Says ['-', d] (-n)

/-- A minus sign and a digit that is not zero. -/
def IsBelowZero (cs : List Char) : Prop :=
  ∃ d n, cs = ['-', d] ∧ digitOf? 16 d = some n ∧ n ≠ 0

variable {c d : Char} {cs : List Char} {n : Nat} {x : Int}

theorem digitOf?_lt {base : Nat} (h : digitOf? base d = some n) : n < base := by
  have hfilter := Option.filter_eq_some_iff.mp h
  exact of_decide_eq_true hfilter.2

/-- No digit of any script is a blank. -/
theorem isBlank_eq_false (h : digitOf? 16 d = some n) : isBlank d = false := by
  have hvalue := (Option.filter_eq_some_iff.mp h).1
  have hcode : 48 ≤ d.toNat ∧ d.toNat ≤ 132 ∨ 161 ≤ d.toNat ∧ d.toNat < 5760 ∨
      5760 < d.toNat ∧ d.toNat < 8192 ∨ 12288 < d.toNat := by
    unfold digitValue? at hvalue
    split at hvalue
    case isTrue hlower =>
      have hlow : 97 ≤ d.toNat := hlower.1
      have hhigh : d.toNat ≤ 122 := hlower.2
      omega
    split at hvalue
    case isTrue hupper =>
      have hlow : 65 ≤ d.toNat := hupper.1
      have hhigh : d.toNat ≤ 90 := hupper.2
      omega
    obtain ⟨z, hz, -⟩ := Option.map_eq_some_iff.mp hvalue
    have hrange := List.find?_some hz
    rw [Bool.and_eq_true, decide_eq_true_eq, decide_eq_true_eq] at hrange
    have hzeros : ∀ z ∈ decimalZeros, z = 48 ∨ 161 ≤ z ∧ z < 5750 ∨ 5760 < z ∧ z < 8182 ∨
        12288 < z := by decide
    have hzero := hzeros z (List.mem_of_find?_eq_some hz)
    omega
  simp only [isBlank, Bool.or_eq_false_iff, Bool.and_eq_false_iff, decide_eq_false_iff_not,
    beq_eq_false_iff_ne]
  omega

theorem natural?_digit : natural? 16 [d] = digitOf? 16 d := by
  cases h : digitOf? 16 d <;> simp [natural?, digits?, digitsFrom?, h]

/-- Signs are no digits, so only a digit by itself is an integer. -/
theorem integer?_of_trim_eq_singleton (h : trimBlanks cs = [d]) :
    integer? 16 cs = (digitOf? 16 d).map Int.ofNat := by
  unfold integer?
  rw [h]
  split
  case h_1 heq =>
    cases heq
    rfl
  case h_2 heq =>
    cases heq
    rfl
  case h_3 => rw [natural?_digit]

/-- A mark of the base has nothing behind it to mark, so two digits are just that. -/
theorem natural?_digits : natural? 16 [c, d] =
    (digitOf? 16 c).bind fun m => (digitOf? 16 d).map fun n => m * 16 + n := by
  change (if 16 = 16 ∧ decimalValue? c = some 0 ∧ (d = 'x' ∨ d = 'X') then digits? 16 []
    else digits? 16 [c, d]) = _
  split
  case isTrue h =>
    have hmark : digitOf? 16 d = none := by
      rcases h.2.2 with rfl | rfl
      · rfl
      · rfl
    rw [hmark]
    cases digitOf? 16 c <;> rfl
  case isFalse =>
    cases hc : digitOf? 16 c with
    | none => simp [digits?, hc]
    | some m => cases hd : digitOf? 16 d <;> simp [digits?, digitsFrom?, hc, hd]

theorem trimBlanks_pair : trimBlanks [c, d] = if isBlank c then if isBlank d then [] else [d]
    else if isBlank d then [c] else [c, d] := by
  cases hc : isBlank c with
  | true => cases hd : isBlank d <;> simp [trimBlanks, hc, hd]
  | false => cases hd : isBlank d <;> simp [trimBlanks, hc, hd]

/-- What is said is read. -/
theorem Says.integer?_eq (h : Says cs x) : integer? 16 cs = some x := by
  cases h with
  | @digits c d m n hc hd =>
    have htrim : trimBlanks [c, d] = [c, d] := by
      simp [trimBlanks_pair, isBlank_eq_false hc, isBlank_eq_false hd]
    unfold integer?
    rw [htrim]
    split
    case h_1 heq =>
      cases heq
      cases hc
    case h_2 heq =>
      cases heq
      cases hc
    case h_3 =>
      rw [natural?_digits, hc, hd]
      rfl
  | @digit d n hd =>
    have htrim : trimBlanks [d] = [d] := by simp [trimBlanks, isBlank_eq_false hd]
    rw [integer?_of_trim_eq_singleton htrim, hd]
    rfl
  | @behindBlank c d n hc hd =>
    have htrim : trimBlanks [c, d] = [d] := by simp [trimBlanks_pair, hc, isBlank_eq_false hd]
    rw [integer?_of_trim_eq_singleton htrim, hd]
    rfl
  | @aheadOfBlank c d n hc hd =>
    have htrim : trimBlanks [d, c] = [d] := by simp [trimBlanks_pair, hc, isBlank_eq_false hd]
    rw [integer?_of_trim_eq_singleton htrim, hd]
    rfl
  | @positive d n hd =>
    have htrim : trimBlanks ['+', d] = ['+', d] := by
      simp [trimBlanks_pair, isBlank_eq_false hd, show isBlank '+' = false from rfl]
    unfold integer?
    rw [htrim]
    change (natural? 16 [d]).map Int.ofNat = _
    rw [natural?_digit, hd]
    rfl
  | @negative d n hd =>
    have htrim : trimBlanks ['-', d] = ['-', d] := by
      simp [trimBlanks_pair, isBlank_eq_false hd, show isBlank '-' = false from rfl]
    unfold integer?
    rw [htrim]
    change (natural? 16 [d]).map (fun n => -(n : Int)) = _
    rw [natural?_digit, hd]
    rfl

/-- What is read of two characters without blanks is said by them. -/
theorem says_of_integer?_pair (hc : isBlank c = false) (hd : isBlank d = false)
    (h : integer? 16 [c, d] = some x) : Says [c, d] x := by
  have htrim : trimBlanks [c, d] = [c, d] := by simp [trimBlanks_pair, hc, hd]
  unfold integer? at h
  rw [htrim] at h
  split at h
  case h_1 heq =>
    cases heq
    rw [natural?_digit] at h
    obtain ⟨k, hk, rfl⟩ := Option.map_eq_some_iff.mp h
    obtain ⟨n, hn, hk⟩ := Option.bind_eq_some_iff.mp hk
    cases hk
    exact .negative hn
  case h_2 heq =>
    cases heq
    rw [natural?_digit] at h
    obtain ⟨n, hn, rfl⟩ := Option.map_eq_some_iff.mp h
    exact .positive hn
  case h_3 =>
    rw [natural?_digits] at h
    obtain ⟨k, hk, rfl⟩ := Option.map_eq_some_iff.mp h
    obtain ⟨m, hm, hk⟩ := Option.bind_eq_some_iff.mp hk
    obtain ⟨n, hn, rfl⟩ := Option.map_eq_some_iff.mp hk
    exact .digits hm hn

/-- Up to two characters are read as an integer exactly if they say it. -/
theorem integer?_eq_some_iff (hcs : cs.length ≤ 2) : integer? 16 cs = some x ↔ Says cs x := by
  refine ⟨fun h => ?_, Says.integer?_eq⟩
  have hlone : ∀ d, trimBlanks cs = [d] → ∃ n : Nat, digitOf? 16 d = some n ∧ x = n := by
    intro d htrim
    rw [integer?_of_trim_eq_singleton htrim] at h
    obtain ⟨n, hn, rfl⟩ := Option.map_eq_some_iff.mp h
    exact ⟨n, hn, rfl⟩
  have hsome : trimBlanks cs ≠ [] := by
    intro htrim
    rw [integer?, htrim] at h
    cases h
  match cs, hcs with
  | [], _ => exact absurd rfl hsome
  | [d], _ =>
    cases hd : isBlank d with
    | true => exact absurd (by simp [trimBlanks, hd]) hsome
    | false =>
      obtain ⟨n, hn, rfl⟩ := hlone d (by simp [trimBlanks, hd])
      exact .digit hn
  | [c, d], _ =>
    rw [trimBlanks_pair] at hlone hsome
    cases hc : isBlank c with
    | true =>
      cases hd : isBlank d with
      | true => simp [hc, hd] at hsome
      | false =>
        obtain ⟨n, hn, rfl⟩ := hlone d (by simp [hc, hd])
        exact .behindBlank hc hn
    | false =>
      cases hd : isBlank d with
      | true =>
        obtain ⟨n, hn, rfl⟩ := hlone c (by simp [hc, hd])
        exact .aheadOfBlank hd hn
      | false => exact says_of_integer?_pair hc hd h

/-- An integer of two characters is at most 255. It is below zero only if the first of them is a
minus sign. -/
theorem Says.bounds (h : Says cs x) : -15 ≤ x ∧ x ≤ 255 ∧
    (x < 0 ↔ IsBelowZero cs) := by
  -- A digit is no minus sign, and neither is a blank.
  have hdigit : ∀ {d : Char} {n : Nat}, digitOf? 16 d = some n → d ≠ '-' := by
    rintro _ n hd rfl
    cases hd
  cases h with
  | @digits c d m n hc hd =>
    have hm := digitOf?_lt hc
    have hn := digitOf?_lt hd
    refine ⟨by omega, by omega, iff_of_false (by omega) ?_⟩
    rintro ⟨_, _, heq, -⟩
    exact hdigit hc (List.cons.inj heq).1
  | digit hd =>
    have hn := digitOf?_lt hd
    refine ⟨by omega, by omega, iff_of_false (by omega) ?_⟩
    rintro ⟨_, _, heq, -⟩
    exact hdigit hd (List.cons.inj heq).1
  | @behindBlank c d n hc hd =>
    have hn := digitOf?_lt hd
    refine ⟨by omega, by omega, iff_of_false (by omega) ?_⟩
    rintro ⟨_, _, heq, -⟩
    cases heq
    cases hc
  | aheadOfBlank hc hd =>
    have hn := digitOf?_lt hd
    refine ⟨by omega, by omega, iff_of_false (by omega) ?_⟩
    rintro ⟨_, _, heq, -⟩
    exact hdigit hd (List.cons.inj heq).1
  | positive hd =>
    have hn := digitOf?_lt hd
    refine ⟨by omega, by omega, iff_of_false (by omega) ?_⟩
    rintro ⟨_, _, heq, -⟩
    cases heq
  | @negative d n hd =>
    have hn := digitOf?_lt hd
    refine ⟨by omega, by omega, fun hneg => ⟨d, n, rfl, hd, by omega⟩, ?_⟩
    rintro ⟨_, n', heq, hd', hne⟩
    cases heq
    obtain rfl : n = n' := Option.some.inj (hd.symm.trans hd')
    omega

end Text

/-! ## Channels -/

namespace Colour

open Text (Says IsBelowZero)

/-- The characters of a channel in hexadecimal. Number signs in front do not count. -/
def pair (s : String) (k : Nat) : List Char :=
  ((s.toList.dropWhile (· = '#')).drop (2 * k)).take 2

variable {s : String} {rgb : List Int}

theorem hexChannel_eq_ok_iff {k : Nat} {x : Int} :
    hexChannel (s.toList.dropWhile (· = '#')) (2 * k) = .ok x ↔ Says (pair s k) x := by
  have hlength : (pair s k).length ≤ 2 := List.length_take_le _ _
  rw [← Text.integer?_eq_some_iff hlength]
  unfold hexChannel pair
  split
  case h_1 n hn => rw [hn, Except.ok.injEq, Option.some.injEq]
  case h_2 hn => simp [hn]

/-- A text is read as a colour exactly if each of its pairs says an integer. -/
theorem ofHex_eq_ok_iff : ofHex s = .ok rgb ↔
    ∃ r g b, rgb = [r, g, b] ∧ Says (pair s 0) r ∧ Says (pair s 1) g ∧ Says (pair s 2) b := by
  simp only [← hexChannel_eq_ok_iff]
  rw [ofHex, mapM_eq_ok_iff]
  simp only [List.forall₂_cons_left_iff, List.forall₂_nil_left_iff]
  constructor
  · rintro ⟨r, _, hr, ⟨g, _, hg, ⟨b, _, hb, rfl, rfl⟩, rfl⟩, rfl⟩
    exact ⟨r, g, b, rfl, hr, hg, hb⟩
  · rintro ⟨r, g, b, rfl, hr, hg, hb⟩
    exact ⟨r, _, hr, ⟨g, _, hg, ⟨b, _, hb, rfl, rfl⟩, rfl⟩, rfl⟩

theorem fault_of_ofHex {fault : Fault} (h : ofHex s = .error fault) : fault = .badValue := by
  obtain ⟨-, k, -, -, -, -, hfault⟩ := mapM_eq_error_iff.mp h
  unfold hexChannel at hfault
  split at hfault
  · cases hfault
  · cases hfault
    rfl

/-- A text is read as three integers exactly if each of its pairs of characters says one; every
other text is a bad value. The integers are at most 255. They are those of a colour unless a pair is
a minus sign and a digit: such a pair is not refused, but read as a channel below zero. -/
theorem hexadecimal_in_range_iff (s : String) :
    (∀ rgb, ofHex s = .ok rgb ↔ ∃ r g b, rgb = [r, g, b] ∧
      Says (pair s 0) r ∧ Says (pair s 1) g ∧ Says (pair s 2) b) ∧
    (∀ fault, ofHex s = .error fault → fault = .badValue) ∧
    ∀ rgb, ofHex s = .ok rgb → (∀ x ∈ rgb, -15 ≤ x ∧ x ≤ 255) ∧
      ((∀ x ∈ rgb, 0 ≤ x ∧ x ≤ 255) ↔ ∀ k < 3, ¬ IsBelowZero (pair s k)) := by
  refine ⟨fun rgb => ofHex_eq_ok_iff, fun fault => fault_of_ofHex, fun rgb h => ?_⟩
  obtain ⟨r, g, b, rfl, hr, hg, hb⟩ := ofHex_eq_ok_iff.mp h
  obtain ⟨hr, hr', hr''⟩ := hr.bounds
  obtain ⟨hg, hg', hg''⟩ := hg.bounds
  obtain ⟨hb, hb', hb''⟩ := hb.bounds
  have hpairs : (∀ k < 3, ¬ IsBelowZero (pair s k)) ↔ ¬ r < 0 ∧ ¬ g < 0 ∧ ¬ b < 0 := by
    rw [hr'', hg'', hb'']
    constructor
    · intro hnone
      exact ⟨hnone 0 (by decide), hnone 1 (by decide), hnone 2 (by decide)⟩
    · rintro ⟨h₀, h₁, h₂⟩ k hk
      interval_cases k
      · exact h₀
      · exact h₁
      · exact h₂
  rw [hpairs]
  simp only [List.forall_mem_cons]
  refine ⟨⟨⟨hr, hr'⟩, ⟨hg, hg'⟩, ⟨hb, hb'⟩, by simp⟩, ?_⟩
  simp only [List.not_mem_nil, false_imp_iff, implies_true, and_true]
  omega

/-- A digit behind a sign, one behind a blank and two digits are the channels of a colour. -/
theorem hexadecimal_in_range_iff_mixed : ofHex "#+9 8ff" = .ok [9, 8, 255] ∧
    ∀ k < 3, ¬ IsBelowZero (pair "#+9 8ff" k) := by
  have h : ofHex "#+9 8ff" = .ok [9, 8, 255] := by decide +kernel
  obtain ⟨-, -, hbounds⟩ := hexadecimal_in_range_iff "#+9 8ff"
  exact ⟨h, (hbounds _ h).2.mp (by decide)⟩

/-- Three minus signs with a digit each are neither refused nor read as a colour. -/
theorem negative_channels_not_refused : ofHex "-1-1-1" = .ok [-1, -1, -1] ∧
    ¬ ((∃ fault, ofHex "-1-1-1" = .error fault) ∨
      ∃ r g b, ofHex "-1-1-1" = .ok [r, g, b] ∧ (0 ≤ r ∧ r ≤ 255) ∧ (0 ≤ g ∧ g ≤ 255) ∧
        0 ≤ b ∧ b ≤ 255) := by
  have h : ofHex "-1-1-1" = .ok [-1, -1, -1] := by decide +kernel
  refine ⟨h, ?_⟩
  rw [h]
  rintro (⟨fault, hfault⟩ | ⟨r, g, b, hrgb, hr, -⟩)
  · cases hfault
  · cases hrgb
    omega

end Colour

end Showreel
