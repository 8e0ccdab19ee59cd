import Mathlib.Algebra.GroupWithZero.Nat

/-!
# Texts and their bytes

Texts that are in the order of their characters have their bytes in order as well (`bytes_le`). UTF-8
spells characters so that the larger one of two has the larger byte where the two first differ
(`before_encode`), and the bytes of no character begin with those of another. A byte below 128 is a
character of its own (`eq_of_mem_encode`).
-/

namespace AdmissionWatch.Text

/-- The bytes of a text. -/
def bytes (s : String) : List UInt8 := s.toUTF8.data.toList

theorem bytes_eq (s : String) : bytes s = s.toList.flatMap String.utf8EncodeChar := by
  obtain ⟨cs, rfl⟩ : ∃ cs, s = String.ofList cs := ⟨s.toList, String.ofList_toList.symm⟩
  rw [String.toList_ofList]
  exact List.toList_data_toByteArray

theorem toList_loop (bs : ByteArray) (i : Nat) (read : List UInt8) :
    ByteArray.toList.loop bs i read = read.reverse ++ bs.data.toList.drop i := by
  fun_induction ByteArray.toList.loop bs i read with
  | case1 i read hin ih =>
    have hlt : i < bs.data.toList.length := hin
    have hget : bs.get! i = bs.data.toList[i] := getElem!_pos bs.data i hin
    rw [ih, List.reverse_cons, List.append_assoc, List.drop_eq_getElem_cons hlt, hget]
    rfl
  | case2 i read hout => rw [List.drop_eq_nil_of_le (Nat.le_of_not_lt hout), List.append_nil]

theorem toList_toUTF8 (s : String) : s.toUTF8.toList = bytes s :=
  toList_loop _ 0 []

theorem bytes_toString (c : Char) : bytes c.toString = String.utf8EncodeChar c := by
  rw [bytes_eq]
  simp

/-- Where two sequences of bytes first differ the first one has the smaller byte. -/
inductive Before : List UInt8 → List UInt8 → Prop
  | head {x y : UInt8} (h : x < y) (bs cs : List UInt8) : Before (x :: bs) (y :: cs)
  | cons (x : UInt8) {bs cs : List UInt8} (h : Before bs cs) : Before (x :: bs) (x :: cs)

namespace Before
variable {bs cs : List UInt8}

theorem append (h : Before bs cs) (bs' cs' : List UInt8) : Before (bs ++ bs') (cs ++ cs') := by
  induction h with
  | head h bs cs => exact .head h _ _
  | cons x _ ih => exact .cons x ih

theorem lt (h : Before bs cs) : bs < cs := by
  induction h with
  | head h bs cs => exact List.Lex.rel h
  | cons x _ ih => exact List.Lex.cons ih

end Before

theorem ofNat_lt {m n : Nat} (h : m < n) (hn : n < 256) : UInt8.ofNat m < UInt8.ofNat n := by
  rw [UInt8.lt_iff_toNat_lt, UInt8.toNat_ofNat', UInt8.toNat_ofNat']
  omega

/-- The last so many bytes of a character, six bits in each. -/
def trail (v : Nat) : Nat → List UInt8
  | 0 => []
  | k + 1 => UInt8.ofNat (v / 64 ^ k % 64 + 0x80) :: trail v k

theorem before_trail {v w k : Nat} (h : v % 64 ^ k < w % 64 ^ k) : Before (trail v k) (trail w k) := by
  induction k with
  | zero => simp [Nat.mod_one] at h
  | succ k ih =>
    rw [Nat.pow_succ, Nat.mod_mul, Nat.mod_mul] at h
    unfold trail
    have hv := Nat.mod_lt v (Nat.pow_pos (n := k) (by decide : 0 < 64))
    have hw := Nat.mod_lt w (Nat.pow_pos (n := k) (by decide : 0 < 64))
    have hdigit := Nat.mod_lt (w / 64 ^ k) (by decide : 0 < 64)
    generalize v / 64 ^ k % 64 = a at *
    generalize w / 64 ^ k % 64 = b at *
    rcases Nat.lt_trichotomy a b with hlt | rfl | hgt
    · exact .head (ofNat_lt (by omega) (by omega)) _ _
    · exact .cons _ (ih (by omega))
    · have hmul := Nat.mul_le_mul_left (64 ^ k) hgt
      rw [Nat.mul_succ] at hmul
      omega

/-- How many bytes trail the first one of a character, and what marks that one. -/
inductive Width : Nat → Nat → Nat → Prop
  | one {v : Nat} (h : v ≤ 0x7f) : Width v 0 0
  | two {v : Nat} (hleast : 0x7f < v) (hmost : v ≤ 0x7ff) : Width v 1 0xc0
  | three {v : Nat} (hleast : 0x7ff < v) (hmost : v ≤ 0xffff) : Width v 2 0xe0
  | four {v : Nat} (hleast : 0xffff < v) (hmost : v < 0x110000) : Width v 3 0xf0

theorem exists_width (c : Char) : ∃ k mark, Width c.val.toNat k mark ∧
    String.utf8EncodeChar c = UInt8.ofNat (c.val.toNat / 64 ^ k + mark) :: trail c.val.toNat k := by
  have hmost : c.val.toNat < 0x110000 := by
    rcases c.valid with h | h
    · exact Nat.lt_trans h (by decide)
    · exact h.2
  unfold String.utf8EncodeChar
  generalize c.val.toNat = v at *
  dsimp only
  split
  · exact ⟨0, 0, .one ‹_›, by simp [trail]⟩
  split
  · exact ⟨1, 0xc0, .two (by omega) ‹_›, by simp [trail, Nat.mod_eq_of_lt (show v / 64 < 32 by omega)]⟩
  split
  · exact ⟨2, 0xe0, .three (by omega) ‹_›, by simp [trail, Nat.mod_eq_of_lt (show v / 4096 < 16 by omega)]⟩
  · exact ⟨3, 0xf0, .four (by omega) hmost, by simp [trail, Nat.mod_eq_of_lt (show v / 262144 < 8 by omega)]⟩

theorem encode_of_ascii {c : Char} (h : c.toNat < 0x80) : String.utf8EncodeChar c = [UInt8.ofNat c.toNat] := by
  unfold String.utf8EncodeChar
  exact if_pos (Nat.le_of_lt_succ h)

theorem le_of_mem_trail {v k : Nat} {b : UInt8} (h : b ∈ trail v k) : 0x80 ≤ b.toNat := by
  induction k with
  | zero => cases h
  | succ k ih =>
    rcases List.mem_cons.mp h with rfl | h
    · rw [UInt8.toNat_ofNat']
      omega
    · exact ih h

/-- A byte below 128 is a character of its own. -/
theorem eq_of_mem_encode {c : Char} {b : UInt8} (h : b ∈ String.utf8EncodeChar c) (hb : b.toNat < 0x80) :
    c.toNat = b.toNat := by
  obtain ⟨k, mark, hwidth, heq⟩ := exists_width c
  rw [heq] at h
  rcases List.mem_cons.mp h with rfl | h
  · rw [UInt8.toNat_ofNat'] at hb ⊢
    show c.val.toNat = _
    cases hwidth <;> omega
  · exact absurd (le_of_mem_trail h) (Nat.not_le.mpr hb)

theorem Width.lt {v k mark : Nat} (h : Width v k mark) : v / 64 ^ k + mark < 256 := by
  cases h <;> omega

/-- A larger character has as many bytes, or a larger first one. -/
theorem Width.cases_of_lt {v w k k' mark mark' : Nat} (hv : Width v k mark) (hw : Width w k' mark') (h : v < w) :
    (k = k' ∧ mark = mark') ∨ v / 64 ^ k + mark < w / 64 ^ k' + mark' := by
  cases hv <;> cases hw <;> omega

theorem before_encode {c d : Char} (h : c < d) : Before (String.utf8EncodeChar c) (String.utf8EncodeChar d) := by
  obtain ⟨k, mark, hc, heq⟩ := exists_width c
  obtain ⟨k', mark', hd, heq'⟩ := exists_width d
  have hlt : c.val.toNat < d.val.toNat := h
  rw [heq, heq']
  rcases hc.cases_of_lt hd hlt with ⟨rfl, rfl⟩ | hhead
  · rcases Nat.lt_or_ge (c.val.toNat / 64 ^ k) (d.val.toNat / 64 ^ k) with hhead | hge
    · exact .head (ofNat_lt (by omega) hd.lt) _ _
    · have hsame := Nat.le_antisymm (Nat.div_le_div_right (Nat.le_of_lt hlt)) hge
      rw [hsame]
      refine .cons _ (before_trail ?_)
      have hsplit := Nat.div_add_mod c.val.toNat (64 ^ k)
      have hsplit' := Nat.div_add_mod d.val.toNat (64 ^ k)
      rw [hsame] at hsplit
      omega
  · exact .head (ofNat_lt hhead hd.lt) _ _

theorem flatMap_encode_lt {cs ds : List Char} (h : cs < ds) :
    cs.flatMap String.utf8EncodeChar < ds.flatMap String.utf8EncodeChar := by
  induction h with
  | @nil d ds =>
    rw [List.flatMap_cons]
    obtain ⟨k, mark, -, heq⟩ := exists_width d
    rw [heq]
    exact List.Lex.nil
  | @cons c cs ds h ih =>
    rw [List.flatMap_cons, List.flatMap_cons]
    exact List.append_left_lt ih
  | @rel c cs d ds h =>
    rw [List.flatMap_cons, List.flatMap_cons]
    exact ((before_encode h).append _ _).lt

theorem bytes_le {s t : String} (h : s ≤ t) : bytes s ≤ bytes t := by
  rw [bytes_eq, bytes_eq]
  rcases List.le_iff_lt_or_eq.mp h with hlt | heq
  · exact List.le_of_lt (flatMap_encode_lt hlt)
  · rw [heq]
    exact List.le_refl _

end AdmissionWatch.Text
