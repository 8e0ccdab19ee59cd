import AdmissionWatch.Proofs.Yaml.Node
import AdmissionWatch.Yaml.Value

/-!
# What mappings of texts denote

A plain word denotes itself: it is none of the words of the core schema, and no number starts with a
letter of lower case. A mapping whose keys are different names denotes the mapping from these names to
what its values denote (`denotes_mapping`). As much fuel as the node has parts is enough, and as many
levels as it has collections in one another.
-/

namespace AdmissionWatch.Yaml

namespace Plain

variable {c : Char} {s : List Char}

theorem lower_ne (hc : c.isLower) (d : Char) (hd : d.isLower = false) : ¬d = c :=
  (ne_of_class hc hd).symm

theorem toNat_lower (hc : c.isLower) : 97 ≤ c.toNat ∧ c.toNat ≤ 122 := by
  obtain ⟨hlow, hhigh⟩ := Bool.and_eq_true_iff.mp hc
  exact ⟨of_decide_eq_true hlow, of_decide_eq_true hhigh⟩

theorem digits?_of_lower (hc : c.isLower) : digits? 10 (c :: s) = none := by
  obtain ⟨hlow, hhigh⟩ := toNat_lower hc
  have hlarge : ∀ d, Text.hexValue? c = some d → ¬d < 10 := by
    intro d hd
    unfold Text.hexValue? at hd
    split at hd
    · rename_i hdigit
      have hnine : c.toNat ≤ 57 := hdigit.2
      omega
    · split at hd
      · cases hd
        omega
      · split at hd
        · rename_i hupper
          have hf : c.toNat ≤ 70 := hupper.2
          omega
        · cases hd
  have hnone : (Text.hexValue? c).bind (fun d => if d < 10 then some (0 * 10 + d) else none) = none := by
    rw [Option.bind_eq_none_iff]
    exact fun d hd => if_neg (hlarge d hd)
  rw [digits?, if_neg (List.cons_ne_nil _ _), List.foldlM_cons, hnone]
  rfl

theorem integer?_of_lower (hc : c.isLower) : integer? (c :: s) = none := by
  have hne := lower_ne hc
  have hplus : Text.dropStart? ['+'] (c :: s) = none := by
    simp [Text.dropStart?, List.isPrefixOf, lower_ne hc '+' (by decide)]
  have hbased : based? (c :: s) = none := by
    unfold based?
    split <;> first | rfl | exact absurd hc (by simp_all)
  have hminus : negative? (c :: s) = none := by
    unfold negative?
    split <;> simp_all
  simp [integer?, natural?, hplus, hbased, hminus, digits?_of_lower hc]

theorem not_isPaddedDigits_of_lower (hc : c.isLower) : isPaddedDigits (c :: s) = false := by
  have hne := lower_ne hc
  have hunsigned : unsigned (c :: s) = c :: s := by
    unfold unsigned
    split <;> simp_all
  unfold isPaddedDigits
  rw [hunsigned]
  split <;> simp_all

theorem not_isDigit_of_lower (hc : c.isLower) : c.isDigit = false := by
  obtain ⟨hlow, -⟩ := toNat_lower hc
  rw [← Bool.not_eq_true]
  intro hdigit
  have hnine : c.toNat ≤ 57 := of_decide_eq_true (Bool.and_eq_true_iff.mp hdigit).2
  omega

theorem unsigned?_of_lower (hc : c.isLower) : Decimal.unsigned? (c :: s) = none := by
  unfold Decimal.unsigned?
  simp only [List.takeWhile_cons, List.dropWhile_cons, not_isDigit_of_lower hc, Bool.false_eq_true, if_false]
  split
  · rename_i heq
    exact absurd (List.cons.inj heq).1.symm (lower_ne hc '.' (by decide))
  · rfl

theorem finite?_of_lower (hc : c.isLower) : Decimal.finite? (c :: s) = none := by
  have hne := lower_ne hc
  unfold Decimal.finite?
  split
  rename_i negative digits heq
  have hdigits : digits = c :: s := by
    split at heq <;> simp_all
  rw [hdigits, unsigned?_of_lower hc]
  rfl

theorem double?_of_lower (hc : c.isLower) : double? (c :: s) = none := by
  have hplus : Text.dropStart? ['+'] (c :: s) = none := by
    simp [Text.dropStart?, List.isPrefixOf, lower_ne hc '+' (by decide)]
  have hne := lower_ne hc
  simp (disch := decide) [double?, hplus, hne, finite?_of_lower hc]

theorem meaning_of_plainWord (h : isPlainWord s) : meaning s = .text := by
  cases s with
  | nil => cases h
  | cons c s =>
    simp only [isPlainWord, Bool.and_eq_true, Bool.not_eq_true'] at h
    obtain ⟨⟨hlower, -⟩, hwords⟩ := h
    simp only [List.any_cons, List.any_nil, Bool.or_false, Bool.or_eq_false_iff, beq_eq_false_iff_ne] at hwords
    obtain ⟨hnull, htrue, hfalse⟩ := hwords
    have hne := lower_ne hlower
    have hnull : isNull (c :: s) = false := by
      simpa (disch := decide) [isNull, hne] using hnull
    have hbool : bool? (c :: s) = none := by
      simp (disch := decide) [bool?, hne] at htrue hfalse ⊢
      rw [if_neg (not_and.mpr htrue), if_neg (not_and.mpr hfalse)]
    simp [meaning, hnull, hbool, integer?_of_lower hlower, double?_of_lower hlower, not_isPaddedDigits_of_lower hlower]

end Plain

namespace Value
open Node

/-- A node without aliases denotes a value, with so many levels of collections allowed. -/
def Denotes (node : Node) (value : Value) (depth : Nat) : Prop :=
  ∀ (targets : List (Nat × Node)) {fuel room : Nat} (left : Nat), node.size ≤ fuel → depth ≤ room →
    ofNode? targets fuel room left node = some (value, left)

theorem denotes_scalar {text : List Char} {style : Style} {value : Value} (h : ofScalar? none text style = some value) :
    Denotes (.scalar none none text style) value 0 := by
  intro targets fuel room left hfuel _
  obtain ⟨fuel, rfl⟩ := Nat.exists_eq_add_of_le' hfuel
  rw [Node.size, ofNode?]
  simp [readingTag, tagging, ownTag?, h]

theorem denotes_quoted (text : String) :
    Denotes (.scalar none none text.toList .singleQuoted) (str text) 0 :=
  denotes_scalar (by simp [ofScalar?])

theorem denotes_name (name : String) : Denotes (ofName name.toList) (str name) 0 := by
  refine denotes_scalar ?_
  unfold nameStyle
  split
  · rename_i hword
    simp [ofScalar?, ofPlain?, Plain.meaning_of_plainWord hword]
  · simp [ofScalar?]

variable {α : Type} {name : α → String} {node : α → Node} {value : α → Value} {depth : Nat} {items : List α}

theorem ofEntries?_names (h : ∀ a ∈ items, Denotes (node a) (value a) depth) (hdistinct : (items.map name).Nodup)
    (targets : List (Nat × Node)) {fuel room : Nat} (left : Nat) {found : List (Value × Value)}
    (hfound : ∀ e ∈ found, ∀ a ∈ items, same e.1 (str (name a)) = false)
    (hfuel : entriesSize (items.map fun a => (ofName (name a).toList, node a)) < fuel) (hroom : depth ≤ room) :
    ofEntries? targets fuel room left found (items.map fun a => (ofName (name a).toList, node a)) =
      some (found ++ items.map fun a => (str (name a), value a), left) := by
  obtain ⟨fuel, rfl⟩ := Nat.exists_eq_succ_of_ne_zero (Nat.ne_zero_of_lt hfuel)
  induction items generalizing fuel found with
  | nil => simp [ofEntries?]
  | cons a items ih =>
    obtain ⟨ha, hitems⟩ := List.forall_mem_cons.mp h
    obtain ⟨hname, hdistinct⟩ := List.nodup_cons.mp hdistinct
    rw [List.map_cons, entriesSize, show (ofName (name a).toList).size = 1 from rfl] at hfuel
    have hkey := denotes_name (name a) targets left (by rw [ofName, Node.size]; omega : _ ≤ fuel) (Nat.zero_le room)
    have hvalue := ha targets left (by omega : _ ≤ fuel) hroom
    have hnew : (found.any fun e => same e.1 (str (name a))) = false := by
      rw [List.any_eq_false]
      exact fun e he => Bool.not_eq_true _ ▸ hfound e he a List.mem_cons_self
    have hrest : ∀ e ∈ found ++ [(str (name a), value a)], ∀ b ∈ items, same e.1 (str (name b)) = false := by
      intro e he b hb
      rcases List.mem_append.mp he with he | he
      · exact hfound e he b (List.mem_cons_of_mem _ hb)
      · rw [List.mem_singleton.mp he, same, beq_eq_false_iff_ne]
        exact fun heq => hname (heq ▸ List.mem_map_of_mem hb)
    obtain ⟨fuel, rfl⟩ := Nat.exists_eq_succ_of_ne_zero (n := fuel) (by omega)
    rw [List.map_cons, ofEntries?]
    simp [hkey, hnew, hvalue, ih hitems hdistinct hrest fuel (by omega)]

theorem denotes_mapping (h : ∀ a ∈ items, Denotes (node a) (value a) depth) (hdistinct : (items.map name).Nodup) :
    Denotes (.mapping none none (items.map fun a => (ofName (name a).toList, node a)))
      (map (items.map fun a => (str (name a), value a))) (depth + 1) := by
  intro targets fuel room left hfuel hroom
  obtain ⟨room, rfl⟩ := Nat.exists_eq_add_of_le' hroom
  rw [Node.size] at hfuel
  obtain ⟨fuel, rfl⟩ := Nat.exists_eq_succ_of_ne_zero (n := fuel) (by omega)
  have hentries := ofEntries?_names h hdistinct targets left (List.forall_mem_nil _) (by omega : _ < fuel)
    (Nat.le_add_left depth room)
  rw [← Nat.add_assoc, ofNode?]
  simp [hentries, tagging, ownTag?]

theorem ofDocument?_of_denotes {root : Node} {value : Value} (h : Denotes root value depth)
    (hdepth : depth ≤ maxDepth) : ofDocument? root = some value := by
  have hfuel : root.size ≤ (aliasesPerPart * root.size + root.size + 2) * (root.size + 2) :=
    Nat.le_trans (Nat.le_add_right _ 2) (Nat.le_mul_of_pos_left _ (Nat.succ_pos _))
  rw [ofDocument?, h root.targets _ hfuel hdepth]
  rfl

end Value

end AdmissionWatch.Yaml
