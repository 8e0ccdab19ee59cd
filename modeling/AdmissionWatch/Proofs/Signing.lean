import Mathlib
import AdmissionWatch.Proofs.Text.Blank
import AdmissionWatch.Proofs.Text.Bytes
import AdmissionWatch.Signing

/-!
# Signatures and how headers are presented

What is signed is the same however the headers of a request are listed, however the letters of their
names are written and whatever blanks stand around their values (`sign_presentation`): all ways to write
a header have one canonical form (`Restyled.canonical`), and the headers have one order, whatever order
they are listed in (`mergeSort_perm_eq`). Nothing is said of the digests.
-/

namespace AdmissionWatch.Signing

open Time

/-! ## Presentations of a header -/

/-- Characters that are the same, or a letter and its capital. -/
inductive SameLetter : Char → Char → Prop
  | refl (c : Char) : SameLetter c c
  | lowered {c d : Char} (hupper : c.isUpper = true) (h : d.toNat = c.toNat + 32) : SameLetter c d
  | raised {c d : Char} (hupper : d.isUpper = true) (h : c.toNat = d.toNat + 32) : SameLetter c d

theorem toLower_of_capital {c d : Char} (hupper : c.isUpper = true) (h : d.toNat = c.toNat + 32) : c.toLower = d := by
  rw [Char.toLower_eq_of_isUpper hupper, ← h, Char.ofNat_toNat]

theorem SameLetter.toLower {c d : Char} (h : SameLetter c d) : c.toLower = d.toLower := by
  cases h with
  | refl => rfl
  | lowered hupper h => rw [← toLower_of_capital hupper h, Char.toLower_toLower_eq_toLower]
  | raised hupper h => rw [← toLower_of_capital hupper h, Char.toLower_toLower_eq_toLower]

/-- A header whose name is written with other letters, and whose value has blanks around it. -/
structure Restyled (h h' : Header) : Prop where
  name : List.Forall₂ SameLetter h.1.toList h'.1.toList
  value : ∃ before after, (∀ c ∈ before, Text.isBlank c = true) ∧ (∀ c ∈ after, Text.isBlank c = true) ∧
    h'.2.toList = before ++ h.2.toList ++ after

theorem map_toLower {cs ds : List Char} (h : List.Forall₂ SameLetter cs ds) :
    cs.map Char.toLower = ds.map Char.toLower := by
  induction h with
  | nil => rfl
  | cons h _ ih => rw [List.map_cons, List.map_cons, h.toLower, ih]

theorem Restyled.canonical {h h' : Header} (hh : Restyled h h') : canonical h = canonical h' := by
  obtain ⟨hname, before, after, hbefore, hafter, hvalue⟩ := hh
  unfold Signing.canonical Text.trimmed
  rw [map_toLower hname, hvalue, Text.trim_around hbefore hafter]

theorem map_canonical {hs hs' : List Header} (h : List.Forall₂ Restyled hs hs') :
    hs.map canonical = hs'.map canonical := by
  induction h with
  | nil => rfl
  | cons h _ ih => rw [List.map_cons, List.map_cons, h.canonical, ih]

/-! ## The order of headers -/

theorem comesFirst_iff {a b : Header} : comesFirst a b = true ↔ toLex a ≤ toLex b := by
  rw [Prod.Lex.toLex_le_toLex]
  simp [comesFirst]

theorem sorted_mergeSort (hs : List Header) : (hs.mergeSort comesFirst).Pairwise fun a b => comesFirst a b = true := by
  refine List.pairwise_mergeSort (fun a b c hab hbc => ?_) (fun a b => ?_) hs
  · rw [comesFirst_iff] at hab hbc ⊢
    exact hab.trans hbc
  · rw [Bool.or_eq_true, comesFirst_iff, comesFirst_iff]
    exact le_total _ _

/-- There is only one order. -/
theorem mergeSort_perm_eq {hs hs' : List Header} (h : hs.Perm hs') :
    hs.mergeSort comesFirst = hs'.mergeSort comesFirst := by
  refine List.Perm.eq_of_pairwise (fun a b _ _ hab hba => ?_) (sorted_mergeSort hs) (sorted_mergeSort hs') ?_
  · exact toLex.injective (le_antisymm (comesFirst_iff.mp hab) (comesFirst_iff.mp hba))
  · exact ((List.mergeSort_perm hs _).trans h).trans (List.mergeSort_perm hs' _).symm

namespace Signer

variable (s : Signer) (r : Request)

/-- The headers that are signed besides those of the request. -/
def ownHeaders (date : String) : List Header :=
  [("host", r.host), ("x-amz-date", date)] ++ (s.credentials.token.map fun t => ("x-amz-security-token", t)).toList

theorem headers_eq (date : String) :
    s.headers r date = (r.headers.map canonical ++ s.ownHeaders r date).mergeSort comesFirst := by
  unfold headers ownHeaders
  rw [← List.append_assoc]
  cases s.credentials.token <;> rfl

theorem headers_perm (r' : Request) (hhost : r'.host = r.host) {restyled : List Header}
    (hstyle : List.Forall₂ Restyled r.headers restyled) (hperm : restyled.Perm r'.headers) (date : String) :
    s.headers r' date = s.headers r date := by
  rw [headers_eq, headers_eq, map_canonical hstyle, ownHeaders, ownHeaders, hhost]
  exact mergeSort_perm_eq ((hperm.map canonical).symm.append_right _)

/-- The names of the headers, each in its place. -/
theorem names_headers (date : String) :
    (((s.headers r date).map Prod.fst).Perm
      (r.headers.map (fun h => h.1.map Char.toLower) ++ (s.ownHeaders r date).map Prod.fst)) ∧
      ((s.headers r date).map Prod.fst).Pairwise fun a b => Text.bytes a ≤ Text.bytes b := by
  rw [headers_eq]
  constructor
  · refine ((List.mergeSort_perm _ _).map Prod.fst).trans (List.Perm.of_eq ?_)
    rw [List.map_append, List.map_map]
    congr 1
    refine List.map_congr_left fun h _ => String.toList_injective ?_
    simp [canonical]
  · rw [List.pairwise_map]
    refine (sorted_mergeSort _).imp fun {a b} h => Text.bytes_le ?_
    rw [comesFirst_iff, Prod.Lex.toLex_le_toLex] at h
    exact h.elim le_of_lt fun h => le_of_eq h.1

theorem exists_authorization (d : Digests) (now : Instant) :
    ∃ signature : List UInt8, (s.sign d r now).authorization =
    "AWS4-HMAC-SHA256 Credential=" ++ s.credentials.keyId ++ "/" ++ s.scope now.basicDate ++ ", SignedHeaders=" ++
      names (s.headers r now.basicText) ++ ", Signature=" ++ Text.hexOfBytes signature :=
  ⟨_, rfl⟩

/-- What is signed depends on what the headers of the request say, not on how they are presented; the
names in the authorization are those of all headers, in lower case and in the order of their bytes. -/
theorem sign_presentation (s : Signer) (d : Digests) (r : Request) (now : Instant) {restyled headers' : List Header}
    (hstyle : List.Forall₂ Restyled r.headers restyled) (hperm : restyled.Perm headers') :
    s.sign d { r with headers := headers' } now = s.sign d r now ∧
      ∃ (names : List String) (signature : List UInt8),
        names.Perm (r.headers.map (fun h => h.1.map Char.toLower) ++ ["host", "x-amz-date"] ++
          if s.credentials.token.isSome then ["x-amz-security-token"] else []) ∧
        (names.Pairwise fun a b => Text.bytes a ≤ Text.bytes b) ∧
        (s.sign d r now).authorization = "AWS4-HMAC-SHA256 Credential=" ++ s.credentials.keyId ++ "/" ++
          s.scope now.basicDate ++
          ", SignedHeaders=" ++ ";".intercalate names ++ ", Signature=" ++ Text.hexOfBytes signature := by
  have hheaders := s.headers_perm r { r with headers := headers' } rfl hstyle hperm now.basicText
  obtain ⟨hnames, hsorted⟩ := s.names_headers r now.basicText
  obtain ⟨signature, hauthorization⟩ := s.exists_authorization r d now
  refine ⟨?_, (s.headers r now.basicText).map Prod.fst, signature, ?_, hsorted, hauthorization⟩
  · unfold sign canonicalRequest
    dsimp only
    rw [hheaders]
  · rw [ownHeaders, List.map_append, ← List.append_assoc] at hnames
    cases htoken : s.credentials.token <;> simpa [htoken] using hnames

/-- Two headers that are listed the other way round, one with a capital and the other with blanks. -/
theorem sign_presentation_swapped :
    let s : Signer := ⟨⟨"AKIDEXAMPLE", "key", some "token"⟩, "us-east-1", "logs"⟩
    let r : Request := ⟨"POST", "localhost", "/", [("accept", "*/*"), ("content-type", "application/json")], []⟩
    let headers' : List Header := [("Content-type", "application/json"), ("accept", " */*\t")]
    let d : Digests := ⟨id, fun key message => key ++ message⟩
    List.Forall₂ Restyled r.headers headers'.reverse ∧
      s.sign d { r with headers := headers' } ⟨1440938160, 0⟩ = s.sign d r ⟨1440938160, 0⟩ := by
  intro s r headers' d
  have hsame {cs : List Char} : List.Forall₂ SameLetter cs cs := List.forall₂_same.mpr fun c _ => .refl c
  have hstyle : List.Forall₂ Restyled r.headers headers'.reverse :=
    .cons ⟨hsame, [' '], ['\t'], by simp [Text.isBlank, Text.blankRanges],
      by simp [Text.isBlank, Text.blankRanges], rfl⟩
      (.cons ⟨.cons (.raised rfl rfl) hsame, [], [], by simp, by simp, rfl⟩ .nil)
  exact ⟨hstyle, (sign_presentation s d r ⟨1440938160, 0⟩ hstyle (List.reverse_perm headers')).1⟩

end Signer

end AdmissionWatch.Signing
