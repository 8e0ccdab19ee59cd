import Mathlib.Algebra.GroupWithZero.Nat
import AdmissionWatch.Text.Digits

/-!
# Numbers and their digits

The digits of a number write that number (`natOfDigits_toDigits`), and none but zero itself starts with
a zero. So many digits write one number below that power of ten, and no others write it
(`natOfDigits_lt`, `eq_of_natOfDigits`).
-/

namespace AdmissionWatch.Text

/-- The number that digits write after others. -/
theorem foldl_digits_eq (ds : List Char) (n : Nat) :
    ds.foldl (fun n c => n * 10 + digitValue c) n = Nat.ofDigitChars 10 ds n := by
  rw [Nat.ofDigitChars_eq_foldl]
  congr
  funext n c
  rw [Nat.mul_comm, digitValue]
  rfl

theorem natOfDigits_toDigits (n : Nat) : natOfDigits (Nat.toDigits 10 n) = n := by
  unfold natOfDigits
  rw [foldl_digits_eq, Nat.ofDigitChars_ten_toDigits]

example : natOfDigits (Nat.toDigits 10 402) = 402 := by decide

theorem isDigit_of_mem_toDigits {n : Nat} {c : Char} (h : c ∈ Nat.toDigits 10 n) : c.isDigit = true :=
  Nat.isDigit_of_mem_toDigits (by decide) (by decide) h

theorem head_toDigits {n : Nat} (h : 0 < n) : (Nat.toDigits 10 n).head? ≠ some '0' := by
  induction n using Nat.strongRecOn with
  | ind n ih =>
    rw [Nat.toDigits_eq_if (by decide)]
    split
    · next hlow =>
      have hall : ∀ d < 10, 0 < d → [Nat.digitChar d].head? ≠ some '0' := by decide
      exact hall n hlow h
    · next hhigh =>
      have hpos : 0 < n / 10 := Nat.div_pos (Nat.not_lt.mp hhigh) (by decide)
      rw [List.head?_append, Option.or_of_isSome (List.isSome_head?.mpr Nat.toDigits_ne_nil)]
      exact ih _ (Nat.div_lt_self h (by decide)) hpos

/-- More than one digit does not start with a zero. -/
theorem toDigits_ne_zero_cons (n : Nat) (d : Char) (more : List Char) : Nat.toDigits 10 n ≠ '0' :: d :: more := by
  intro heq
  cases n with
  | zero => cases heq
  | succ n => exact head_toDigits (Nat.succ_pos n) (by rw [heq]; rfl)

/-! ## Numbers of so many digits -/

theorem digitValue_range {c : Char} (h : c.isDigit = true) : digitValue c < 10 ∧ c.toNat = digitValue c + 48 := by
  rw [Char.isDigit_iff_toNat] at h
  obtain ⟨hleast, hmost⟩ : 48 ≤ c.toNat ∧ c.toNat ≤ 57 := h
  unfold digitValue
  omega

theorem foldl_digits_lt {ds : List Char} (h : ∀ c ∈ ds, c.isDigit = true) (n : Nat) :
    ds.foldl (fun n c => n * 10 + digitValue c) n < (n + 1) * 10 ^ ds.length := by
  induction ds generalizing n with
  | nil => simp
  | cons c ds ih =>
    obtain ⟨hc, hrest⟩ := List.forall_mem_cons.mp h
    have hnext : n * 10 + digitValue c + 1 ≤ (n + 1) * 10 := by
      have hvalue := (digitValue_range hc).1
      omega
    calc ds.foldl (fun n c => n * 10 + digitValue c) (n * 10 + digitValue c)
        < (n * 10 + digitValue c + 1) * 10 ^ ds.length := ih hrest _
      _ ≤ (n + 1) * 10 * 10 ^ ds.length := Nat.mul_le_mul_right _ hnext
      _ = (n + 1) * 10 ^ (ds.length + 1) := by rw [Nat.mul_assoc, Nat.pow_succ']

theorem natOfDigits_lt {ds : List Char} (h : ∀ c ∈ ds, c.isDigit = true) : natOfDigits ds < 10 ^ ds.length := by
  have hlt := foldl_digits_lt h 0
  rwa [Nat.zero_add, Nat.one_mul] at hlt

theorem eq_of_natOfDigits {ds ds' : List Char} (hlength : ds.length = ds'.length) (h : ∀ c ∈ ds, c.isDigit = true)
    (h' : ∀ c ∈ ds', c.isDigit = true) (hvalue : natOfDigits ds = natOfDigits ds') : ds = ds' := by
  have hall : ∀ n n', ds.foldl (fun n c => n * 10 + digitValue c) n =
      ds'.foldl (fun n c => n * 10 + digitValue c) n' →
      n = n' ∧ ds = ds' := by
    clear hvalue
    induction ds generalizing ds' with
    | nil =>
      obtain rfl := List.length_eq_zero_iff.mp hlength.symm
      exact fun n n' heq => ⟨heq, rfl⟩
    | cons c ds ih =>
      cases ds' with
      | nil => cases hlength
      | cons c' ds' =>
        intro n n' heq
        obtain ⟨hc, hrest⟩ := List.forall_mem_cons.mp h
        obtain ⟨hc', hrest'⟩ := List.forall_mem_cons.mp h'
        obtain ⟨hvalue, rfl⟩ := ih (Nat.succ.inj hlength) hrest hrest' _ _ heq
        dsimp only at hvalue
        obtain ⟨hten, hcode⟩ := digitValue_range hc
        obtain ⟨hten', hcode'⟩ := digitValue_range hc'
        have hsame : c.toNat = c'.toNat := by omega
        exact ⟨by omega, by rw [Char.toNat_inj.mp hsame]⟩
  exact (hall 0 0 hvalue).2

end AdmissionWatch.Text
