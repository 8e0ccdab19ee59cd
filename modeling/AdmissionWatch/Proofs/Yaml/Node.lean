import AdmissionWatch.Proofs.Yaml.Scalar
import AdmissionWatch.Yaml.Node

/-!
# Reading mappings

A node without properties is read off the start of what is left of the tokens, whatever follows
(`IsRead`). That holds of scalars, and of a mapping by induction on its entries when it holds of their
values. As much fuel as there are tokens is enough.
-/

namespace AdmissionWatch.Yaml

/-- The tokens of an entry of a mapping, of which the value has these. -/
def entryTokens (name : List Char) (value : List Token) : List Token :=
  .key :: .scalar name (nameStyle name) :: .value :: value

/-- The tokens of a mapping in block style, of which the entries have these. -/
def mappingTokens (entries : List (List Token)) : List Token :=
  .blockMappingStart :: (entries.flatten ++ [.blockEnd])

namespace Node

/-- The node of a name, plain or quoted. -/
def ofName (name : List Char) : Node :=
  .scalar none none name (nameStyle name)

/-- A node is read from tokens, whatever follows them. -/
structure IsRead (node : Node) (tokens : List Token) : Prop where
  starts : ∃ t more, tokens = t :: more ∧ lacksPart (some t) = false
  reads : ∀ (handles : List (List Char × List Char)) (indentless : Bool) (rest : List Token)
    (anchors : List (List Char × Nat)) {fuel : Nat}, tokens.length ≤ fuel →
    node? handles fuel true indentless ⟨tokens ++ rest, anchors⟩ = some (node, ⟨rest, anchors⟩)

theorem isRead_scalar (text : List Char) (style : Style) :
    IsRead (.scalar none none text style) [.scalar text style] := by
  refine ⟨⟨_, _, rfl, rfl⟩, fun handles indentless rest anchors fuel hfuel => ?_⟩
  obtain ⟨fuel, rfl⟩ := Nat.exists_eq_add_of_le' hfuel
  rw [List.length_singleton, node?]
  simp [Remaining.head?, Remaining.tail, properties, fullTag?, defineAnchor, scalarTag]

variable {handles : List (List Char × List Char)} {fuel : Nat} {rest : List Token} {anchors : List (List Char × Nat)}

theorem blockEntries?_end : blockEntries? handles (fuel + 1) ⟨.blockEnd :: rest, anchors⟩ =
    some ([], ⟨rest, anchors⟩) := by
  simp [blockEntries?, Remaining.head?, Remaining.tail]

theorem blockEntries?_entry {name : List Char} {node : Node} {value : List Token} (hvalue : IsRead node value)
    (hfuel : (entryTokens name value).length ≤ fuel) :
    blockEntries? handles (fuel + 1) ⟨entryTokens name value ++ rest, anchors⟩ =
      (blockEntries? handles fuel ⟨rest, anchors⟩).map fun (entries, r) => ((ofName name, node) :: entries, r) := by
  simp only [entryTokens, List.length_cons] at hfuel
  have hkey := (isRead_scalar name (nameStyle name)).reads handles true (.value :: (value ++ rest)) anchors
    (by rw [List.length_singleton]; omega : _ ≤ fuel)
  have hread := hvalue.reads handles true rest anchors (by omega : _ ≤ fuel)
  obtain ⟨t, more, rfl, hstarts⟩ := hvalue.starts
  have hname : lacksPart (some (.scalar name (nameStyle name))) = false := rfl
  rw [blockEntries?]
  simp only [List.cons_append, List.nil_append] at hkey hread
  simp [Remaining.head?, Remaining.tail, entryTokens, ofName, hname, hstarts, hkey, hread]

variable {α : Type} (name : α → List Char) {node : α → Node} {value : α → List Token} {items : List α}

theorem blockEntries?_read (h : ∀ a ∈ items, IsRead (node a) (value a))
    (hfuel : (items.map fun a => entryTokens (name a) (value a)).flatten.length < fuel) :
    blockEntries? handles fuel
      ⟨(items.map fun a => entryTokens (name a) (value a)).flatten ++ .blockEnd :: rest, anchors⟩ =
      some (items.map fun a => (ofName (name a), node a), ⟨rest, anchors⟩) := by
  obtain ⟨fuel, rfl⟩ := Nat.exists_eq_succ_of_ne_zero (Nat.ne_zero_of_lt hfuel)
  induction items generalizing fuel with
  | nil => exact blockEntries?_end
  | cons a items ih =>
    obtain ⟨ha, hitems⟩ := List.forall_mem_cons.mp h
    rw [List.map_cons, List.flatten_cons, List.length_append] at hfuel
    rw [List.map_cons, List.flatten_cons, List.append_assoc, blockEntries?_entry ha (by omega)]
    obtain ⟨fuel, rfl⟩ := Nat.exists_eq_succ_of_ne_zero (n := fuel) (by rintro rfl; simp [entryTokens] at hfuel)
    rw [ih hitems fuel (by simp only [entryTokens, List.length_cons] at hfuel ⊢; omega)]
    rfl

theorem isRead_mapping (h : ∀ a ∈ items, IsRead (node a) (value a)) :
    IsRead (.mapping none none (items.map fun a => (ofName (name a), node a)))
      (mappingTokens (items.map fun a => entryTokens (name a) (value a))) := by
  refine ⟨⟨_, _, rfl, rfl⟩, fun handles indentless rest anchors fuel hfuel => ?_⟩
  simp only [mappingTokens, List.length_cons, List.length_append, List.length_nil] at hfuel
  obtain ⟨fuel, rfl⟩ := Nat.exists_eq_succ_of_ne_zero (Nat.ne_zero_of_lt hfuel)
  rw [node?]
  simp [mappingTokens, Remaining.head?, Remaining.tail, properties, fullTag?, defineAnchor,
    blockEntries?_read name h (by omega : _ < fuel)]

/-- A document of one node and nothing else. -/
theorem ofTokens?_read {root : Node} {entries : List (List Token)} (h : IsRead root (mappingTokens entries)) :
    ofTokens? (mappingTokens entries) = some (some root) := by
  have hroot := h.reads knownHandles false [] [] (by omega : _ ≤ 3 * (mappingTokens entries).length + 3)
  rw [List.append_nil] at hroot
  have hopens : opensDocument .blockMappingStart = false := rfl
  unfold ofTokens?
  simp only [mappingTokens] at hroot ⊢
  simp only [hopens, Bool.false_eq_true, if_false, hroot, Option.bind_eq_bind, Option.bind_some]
  rfl

end Node

end AdmissionWatch.Yaml
