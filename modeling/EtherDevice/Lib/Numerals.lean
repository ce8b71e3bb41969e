import Mathlib

/-!
# Decimal numbers in C

`decimal` is what `%d` prints, and `strtol` reads a number of base 10 in the range from `lo` to
`hi`. What was printed is read back, whatever text follows it, as long as this does not go on
with a digit (`strtol_decimal`).
-/

namespace EtherDevice.Lib

def isSpace (c : Char) : Bool := c = ' ' || (9 ≤ c.toNat && c.toNat ≤ 13)

def sign : List Char → Bool × List Char
  | '-' :: s => (true, s)
  | '+' :: s => (false, s)
  | s => (false, s)

/-- The number, and the text behind it. Without digits the text stays as it is. -/
def strtol (lo hi : Int) (s : List Char) : Int × List Char :=
  let (negative, t) := sign (s.dropWhile isSpace)
  match t.takeWhile Char.isDigit with
  | [] => (0, s)
  | digits =>
    let n : Int := Nat.ofDigitChars 10 digits 0
    (max lo (min hi (if negative then -n else n)), t.dropWhile Char.isDigit)

def decimal (n : Int) : List Char :=
  if n < 0 then '-' :: Nat.toDigits 10 n.natAbs else Nat.toDigits 10 n.natAbs

variable {lo hi n : Int} {rest : List Char}

theorem exists_toDigits (m : Nat) : ∃ c cs, Nat.toDigits 10 m = c :: cs ∧ c.isDigit = true := by
  obtain ⟨c, cs, heq⟩ := List.exists_cons_of_ne_nil (Nat.toDigits_ne_nil (n := m) (b := 10))
  refine ⟨c, cs, heq, Nat.isDigit_of_mem_toDigits (b := 10) (n := m) (by decide) (by decide) ?_⟩
  rw [heq]
  exact List.mem_cons_self

theorem isSpace_of_isDigit {c : Char} (hc : c.isDigit = true) :
    isSpace c = false ∧ c ≠ '-' ∧ c ≠ '+' := by
  simp only [Char.isDigit, Bool.and_eq_true, decide_eq_true_eq, ge_iff_le] at hc
  obtain ⟨hlo, hhi⟩ := hc
  have hlo' : 48 ≤ c.toNat := hlo
  refine ⟨?_, ?_, ?_⟩
  · simp only [isSpace, Bool.or_eq_false_iff, decide_eq_false_iff_not, Bool.and_eq_false_iff]
    refine ⟨?_, .inr (by omega)⟩
    rintro rfl
    exact absurd hlo' (by decide)
  · rintro rfl
    exact absurd hlo' (by decide)
  · rintro rfl
    exact absurd hlo' (by decide)

theorem takeWhile_digits (m : Nat) (hrest : ∀ c ∈ rest.head?, c.isDigit = false) :
    (Nat.toDigits 10 m ++ rest).takeWhile Char.isDigit = Nat.toDigits 10 m ∧
      (Nat.toDigits 10 m ++ rest).dropWhile Char.isDigit = rest := by
  have hdigits : ∀ c ∈ Nat.toDigits 10 m, c.isDigit = true := fun c hc =>
    Nat.isDigit_of_mem_toDigits (by decide) (by decide) hc
  have hnone : rest.takeWhile Char.isDigit = [] ∧ rest.dropWhile Char.isDigit = rest := by
    cases rest with
    | nil => exact ⟨rfl, rfl⟩
    | cons c rest => simp [hrest c rfl]
  rw [List.takeWhile_append_of_pos hdigits, List.dropWhile_append_of_pos hdigits, hnone.1, hnone.2]
  simp

theorem sign_decimal (n : Int) (rest : List Char) :
    sign ((decimal n ++ rest).dropWhile isSpace) =
      (decide (n < 0), Nat.toDigits 10 n.natAbs ++ rest) := by
  obtain ⟨c, cs, heq, hdigit⟩ := exists_toDigits n.natAbs
  obtain ⟨hspace, hminus, hplus⟩ := isSpace_of_isDigit hdigit
  unfold decimal
  split_ifs with hneg
  · have hspace' : isSpace '-' = false := by decide
    rw [List.cons_append, List.dropWhile_cons_of_neg (by simp [hspace'])]
    simp [sign, hneg]
  · rw [heq, List.cons_append, List.dropWhile_cons_of_neg (by simp [hspace])]
    unfold sign
    split <;> simp_all

theorem strtol_decimal (hlo : lo ≤ n) (hhi : n ≤ hi)
    (hrest : ∀ c ∈ rest.head?, c.isDigit = false) :
    strtol lo hi (decimal n ++ rest) = (n, rest) := by
  obtain ⟨htake, hdrop⟩ := takeWhile_digits n.natAbs hrest
  obtain ⟨c, cs, heq, -⟩ := exists_toDigits n.natAbs
  have hvalue : Nat.ofDigitChars 10 (c :: cs) 0 = n.natAbs := by
    rw [← heq]
    exact Nat.ofDigitChars_ten_toDigits
  unfold strtol
  rw [sign_decimal]
  dsimp only
  rw [htake, hdrop, heq]
  dsimp only
  rw [hvalue]
  refine Prod.ext ?_ rfl
  by_cases hneg : n < 0
  · simp only [hneg, decide_true, if_true]
    omega
  · simp only [hneg, decide_false, Bool.false_eq_true, if_false]
    omega

theorem mem_decimal {c : Char} (hc : c ∈ decimal n) : c = '-' ∨ c.isDigit = true := by
  have hdigit : c ∈ Nat.toDigits 10 n.natAbs → c.isDigit = true :=
    Nat.isDigit_of_mem_toDigits (by decide) (by decide)
  unfold decimal at hc
  split_ifs at hc
  · exact (List.mem_cons.mp hc).imp_right hdigit
  · exact .inr (hdigit hc)

theorem length_decimal_le {k : Nat} (hk : 0 < k) (hn : n.natAbs < 10 ^ k) :
    (decimal n).length ≤ k + 1 := by
  have hlen := (Nat.length_toDigits_le_iff (b := 10) (n := n.natAbs) (by decide) hk).mpr hn
  unfold decimal
  split_ifs
  · exact Nat.succ_le_succ hlen
  · omega

end EtherDevice.Lib
