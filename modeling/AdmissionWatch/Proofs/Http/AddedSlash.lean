import AdmissionWatch.Proofs.Http.Parts

/-!
# A slash behind the text of a URL

A slash that is put behind the text of a network address does not change the server (`WithSlash.server`).
Does the address name the root of the server? It still does afterwards if the slash is in the fragment or
is the first of a path (`TakesSlash`), and not otherwise: behind another slash it starts an empty part of
the path, behind blanks these are in the path or in the name of the server, and behind a query it is in
the query (`read_withSlash`).
-/

namespace AdmissionWatch.Http

variable {scheme text : String} {s rest after : List Char} {query : Option String} {u v : Url}

/-! ### A slash behind what follows a scheme -/

/-- Whether a text ends neither in a slash nor in what does not count there. -/
def EndsOpen (s : List Char) : Prop :=
  ∀ c ∈ s.getLast?, isEdge c = false ∧ endsAuthority true c = false

instance (s : List Char) : Decidable (EndsOpen s) :=
  decidable_of_iff (s.getLast?.all (fun c => !isEdge c && !endsAuthority true c) = true)
    (by simp [EndsOpen, Option.all_eq_true])

theorem endsOpen_append (hs : s ≠ []) (before : List Char) : EndsOpen (before ++ s) ↔ EndsOpen s := by
  rw [EndsOpen, EndsOpen, List.getLast?_append_of_ne_nil _ hs]

theorem endsOpen_append_edge (hs : ∀ c ∈ s.getLast?, isEdge c = false) (hafter : ∀ c ∈ after, isEdge c) :
    EndsOpen (s ++ after) ↔ after = [] ∧ ∀ c ∈ s.getLast?, endsAuthority true c = false := by
  rcases List.eq_nil_or_concat after with rfl | ⟨init, c, rfl⟩
  · rw [List.append_nil, EndsOpen]
    exact ⟨fun h => ⟨rfl, fun c hc => (h c hc).2⟩, fun h c hc => ⟨hs c hc, h.2 c hc⟩⟩
  · have hedge : isEdge c = true := hafter c (by simp)
    simp [EndsOpen, hedge]

/-- What has become of a URL whose text was made longer by a slash: the server is the same, and what was
at its root and `stays` is the same URL. -/
structure WithSlash (u : Url) (stays : Prop) (longer : Except UrlError Url) : Prop where
  kept : u.path = "/" → u.query = none → stays → longer = .ok u
  server : ∀ v, longer = .ok v → v.authority? = u.authority?
  root : ∀ v, longer = .ok v → v.path = "/" → v.query = none → u.path = "/" ∧ u.query = none ∧ stays

theorem WithSlash.same {stays : Prop} (hstays : stays) : WithSlash u stays (.ok u) := by
  refine ⟨fun _ _ _ => rfl, fun v hv => ?_, fun v hv hpath hquery => ?_⟩
  · rw [← Except.ok.inj hv]
  · obtain rfl := Except.ok.inj hv
    exact ⟨hpath, hquery, hstays⟩

section
variable (hafter : ∀ c ∈ after, isEdge c) (hs : ∀ c ∈ s, endsAuthority true c = false)
include hafter hs

/-- Behind a server a slash is the path, unless more than the name of the server comes before it. -/
theorem withSlash_server (h : readAuthority scheme true s none = .ok u)
    (hend : ∀ c ∈ s.getLast?, isEdge c = false) :
    WithSlash u (EndsOpen (s ++ after)) (readAuthority scheme true (s ++ after ++ ['/']) none) := by
  rw [readAuthority_of_server hs] at h
  obtain ⟨w, hw, rfl⟩ := map_eq_ok_iff.mp h
  rcases List.eq_nil_or_concat after with rfl | ⟨init, c, rfl⟩
  · have hsame : readAuthority scheme true (s ++ [] ++ ['/']) none = .ok { w with path := "/", query := none } := by
      rw [List.append_nil, readAuthority_of_path hs rfl, hw]
      rfl
    rw [hsame]
    exact .same ((endsOpen_append_edge hend hafter).mpr ⟨rfl, fun c hc => hs c (List.mem_of_getLast? hc)⟩)
  · have hfails : ∀ v, readAuthority scheme true (s ++ init.concat c ++ ['/']) none ≠ .ok v := by
      intro v hv
      have hgoesOn : ∀ d ∈ s ++ init.concat c, endsAuthority true d = false := by
        intro d hd
        rcases List.mem_append.mp hd with hd | hd
        · exact hs d hd
        · exact endsAuthority_of_isEdge (hafter d hd)
      rw [readAuthority_of_path hgoesOn rfl] at hv
      obtain ⟨w, hw, -⟩ := map_eq_ok_iff.mp hv
      rw [List.concat_eq_append, ← List.append_assoc] at hw hgoesOn
      exact readAuthority_edge (hafter c (by simp)) scheme (fun d hd => hgoesOn d (List.mem_append_left _ hd)) none w hw
    refine ⟨fun _ _ hopen => ?_, fun v hv => absurd hv (hfails v), fun v hv => absurd hv (hfails v)⟩
    simpa using ((endsOpen_append_edge hend hafter).mp hopen).1

/-- Behind a path a slash is a part of the path. -/
theorem withSlash_path {c : Char} {path : List Char} (hc : endsAuthority true c = true)
    (h : readAuthority scheme true (s ++ c :: path) none = .ok u)
    (hend : ∀ d ∈ (s ++ c :: path).getLast?, isEdge d = false) :
    WithSlash u (EndsOpen (s ++ c :: path ++ after))
      (readAuthority scheme true (s ++ c :: path ++ after ++ ['/']) none) := by
  rw [readAuthority_of_path hs hc] at h
  obtain ⟨w, hw, rfl⟩ := map_eq_ok_iff.mp h
  have hlonger : readAuthority scheme true (s ++ c :: path ++ after ++ ['/']) none =
      .ok { w with path := readPath (slashed (c :: path) ++ after ++ ['/']), query := none } := by
    rw [List.append_assoc, List.append_assoc, List.cons_append, readAuthority_of_path hs hc, hw, ← List.cons_append,
      slashed_append, slashed_append, slashed_edge hafter, ← List.append_assoc]
    rfl
  have hroot : readPath (slashed (c :: path) ++ after ++ ['/']) = "/" ↔
      readPath (slashed (c :: path)) = "/" ∧ EndsOpen (s ++ c :: path ++ after) := by
    rw [readPath_slash_iff (by simp [slashed, hc]) hafter, endsOpen_append_edge hend hafter, getLast?_slashed,
      List.getLast?_append_of_ne_nil _ (List.cons_ne_nil _ _)]
  rw [hlonger]
  refine ⟨fun hpath _ hopen => ?_, fun v hv => ?_, fun v hv hpath _ => ?_⟩
  · have hpath : readPath (slashed (c :: path)) = "/" := hpath
    rw [hroot.mpr ⟨hpath, hopen⟩, hpath]
  · rw [← Except.ok.inj hv]
    rfl
  · obtain rfl := Except.ok.inj hv
    obtain ⟨hpath, hopen⟩ := hroot.mp hpath
    exact ⟨hpath, rfl, hopen⟩

end

section
variable (hafter : ∀ c ∈ after, isEdge c)
include hafter

theorem withSlash_authority (h : readAuthority scheme true s none = .ok u)
    (hend : ∀ c ∈ s.getLast?, isEdge c = false) :
    WithSlash u (EndsOpen (s ++ after)) (readAuthority scheme true (s ++ after ++ ['/']) none) := by
  cases hfind : s.find? (endsAuthority true) with
  | none => exact withSlash_server hafter (by simpa using List.find?_eq_none.mp hfind) h hend
  | some c =>
    obtain ⟨hc, server, path, rfl, hserver⟩ := List.find?_eq_some_iff_append.mp hfind
    exact withSlash_path hafter (by simpa using hserver) hc h hend

variable (hscheme : (schemePort? scheme).isSome) (h : readRest scheme rest = .ok u)
include hscheme h

theorem withSlash_rest (hquery : '?' ∉ rest) (hend : ∀ c ∈ rest.getLast?, isEdge c = false) :
    WithSlash u (EndsOpen (rest ++ after)) (readRest scheme (rest ++ after ++ ['/'])) := by
  have hquery' : '?' ∉ rest ++ after ++ ['/'] := by
    have hedge : '?' ∉ after := fun hmem => absurd (hafter _ hmem) (by decide)
    simp [hquery, hedge]
  rw [readRest_plain hscheme hquery] at h
  have hhost : rest.dropWhile (endsAuthority true) ≠ [] := by
    intro hnil
    rw [hnil] at h
    exact readAuthority_nil h
  have hrest : rest.takeWhile (endsAuthority true) ++ rest.dropWhile (endsAuthority true) = rest :=
    List.takeWhile_append_dropWhile
  have hslash : (rest ++ after ++ ['/']).dropWhile (endsAuthority true) =
      rest.dropWhile (endsAuthority true) ++ after ++ ['/'] := by
    rw [List.append_assoc, List.dropWhile_append, if_neg (by simpa using hhost), List.append_assoc]
  rw [readRest_plain hscheme hquery', hslash]
  rw [← hrest, List.getLast?_append_of_ne_nil _ hhost] at hend
  rw [← hrest, List.append_assoc, endsOpen_append (List.append_ne_nil_of_left_ne_nil hhost _), hrest]
  exact withSlash_authority hafter h hend

omit hafter in
theorem withSlash_query (hquery : '?' ∈ rest) (stays : Prop) :
    WithSlash u stays (readRest scheme (rest ++ after ++ ['/'])) := by
  obtain ⟨hierarchy, query, rfl, hhierarchy⟩ := List.eq_append_cons_of_mem hquery
  rw [readRest_query hscheme hhierarchy] at h
  obtain ⟨w, hw, rfl⟩ := map_eq_ok_iff.mp h
  rw [List.append_assoc, List.append_assoc, List.cons_append, readRest_query hscheme hhierarchy, hw]
  refine ⟨fun _ hnone _ => absurd hnone (by simp), fun v hv => ?_, fun v hv _ hnone => ?_⟩
  · rw [← Except.ok.inj hv]
    rfl
  · rw [← Except.ok.inj hv] at hnone
    cases hnone

end

/-! ### A slash behind the text of a URL -/

theorem exists_schemeName (h : splitScheme? s = some (scheme, rest)) :
    ∃ name, s = name ++ ':' :: rest ∧ '#' ∉ name ∧ ∀ more,
      splitScheme? (s ++ more) = some (scheme, rest ++ more) := by
  unfold splitScheme? at h
  split at h
  · rename_i c name rest hcut
    split at h
    · rename_i hname
      obtain ⟨rfl, rfl⟩ := Prod.mk.inj (Option.some.inj h)
      obtain ⟨rfl, hcolon⟩ := Text.isCut_singleton_iff.mp (Text.isCut_of_splitOnce hcut)
      refine ⟨c :: name, rfl, fun hmem => ?_, fun more => ?_⟩
      · rcases List.mem_cons.mp hmem with rfl | hmem
        · exact absurd hname.1 (by decide)
        · exact absurd (List.all_eq_true.mp hname.2 _ hmem) (by decide)
      · have hlonger : c :: name ++ ':' :: rest ++ more = c :: name ++ ':' :: (rest ++ more) := by simp
        rw [hlonger, splitScheme?, Text.splitOnce_eq_some_iff.mpr (Text.isCut_singleton_iff.mpr ⟨rfl, hcolon⟩)]
        exact if_pos hname
    · cases h
  · cases h

/-- What stands before and behind the part of a URL that follows its scheme, and what a slash comes
behind. -/
theorem exists_rest (h : Url.read text = .ok u) : ∃ before rest after, '#' ∉ before ∧
    (∀ c ∈ after, isEdge c) ∧
    (text.toList.filter fun c => !isBreak c) = before ++ (rest ++ after) ∧
    (∀ c ∈ rest.getLast?, isEdge c = false) ∧
    readRest u.scheme (rest.takeWhile (· ≠ '#')) = .ok u ∧
    Url.read (text ++ "/") = readRest u.scheme ((rest ++ after ++ ['/']).takeWhile (· ≠ '#')) := by
  unfold Url.read at h
  split at h
  · cases h
  · rename_i scheme rest hsplit
    obtain rfl := readRest_scheme h
    obtain ⟨before, after, hkept, hbefore, hafter, hend, hcounted⟩ := exists_edges text.toList
    obtain ⟨name, hname, hfragment, hmore⟩ := exists_schemeName hsplit
    have hbefore : '#' ∉ before := fun hmem => absurd (hbefore _ hmem) (by decide)
    refine ⟨before ++ name ++ [':'], rest, after, by simp [hbefore, hfragment], hafter, ?_,
      fun c hc => hend c ?_, h, ?_⟩
    · rw [hkept, hname]
      simp
    · rw [hname, List.append_cons, List.getLast?_append, hc]
      rfl
    · rw [Url.read, String.toList_append, show "/".toList = ['/'] from rfl, hcounted, List.append_assoc, hmore,
        List.append_assoc]

theorem scheme_of_read_slash (h : Url.read text = .ok u) (hv : Url.read (text ++ "/") = .ok v) :
    v.scheme = u.scheme := by
  obtain ⟨before, rest, after, -, -, -, -, -, hlonger⟩ := exists_rest h
  exact readRest_scheme (hlonger ▸ hv)

/-- Whether a slash behind the text of a URL is in the fragment or the first of a path. -/
def TakesSlash (text : String) : Prop :=
  '#' ∈ text.toList ∨ EndsOpen (text.toList.filter fun c => !isBreak c)

instance (text : String) : Decidable (TakesSlash text) :=
  inferInstanceAs (Decidable (_ ∨ _))

/-- A slash behind the text of a network address keeps the server, and it keeps the root of the server
if it is in the fragment or the first of a path. -/
theorem read_withSlash (h : Url.read text = .ok u) (hscheme : (schemePort? u.scheme).isSome) :
    WithSlash u (TakesSlash text) (Url.read (text ++ "/")) := by
  obtain ⟨before, rest, after, hbefore, hafter, hkept, hend, hrest, hlonger⟩ := exists_rest h
  have hafterHash : '#' ∉ after := fun hmem => absurd (hafter _ hmem) (by decide)
  have hin : '#' ∈ text.toList ↔ '#' ∈ rest := by
    have hcount : '#' ∈ text.toList ↔ '#' ∈ text.toList.filter fun c => !isBreak c := by
      rw [List.mem_filter]
      exact (and_iff_left (by decide)).symm
    rw [hcount, hkept]
    simp [hbefore, hafterHash]
  rw [hlonger, TakesSlash, hin, hkept]
  by_cases hhash : '#' ∈ rest
  · obtain ⟨seen, fragment, rfl, hseen⟩ := List.eq_append_cons_of_mem hhash
    have hcut : seen ++ '#' :: fragment ++ after ++ ['/'] = seen ++ '#' :: (fragment ++ after ++ ['/']) := by simp
    rw [takeWhile_ne hseen] at hrest
    rw [hcut, takeWhile_ne hseen, hrest]
    exact .same (.inl hhash)
  · have hall : ∀ c ∈ rest ++ after ++ ['/'], decide (c ≠ '#') = true :=
      fun c hc => decide_eq_true (ne_of_mem_of_not_mem hc (by simp [hhash, hafterHash]))
    rw [List.takeWhile_eq_self_iff.mpr fun c hc => hall c (by simp [hc])] at hrest
    rw [List.takeWhile_eq_self_iff.mpr hall]
    by_cases hquery : '?' ∈ rest
    · exact withSlash_query hscheme hrest hquery _
    · have hne : rest ≠ [] := by
        rintro rfl
        rw [readRest_plain hscheme hquery] at hrest
        exact readAuthority_nil hrest
      rw [propext (or_iff_right hhash), propext (endsOpen_append (by simp [hne]) before)]
      exact withSlash_rest hafter hscheme hrest hquery hend

end AdmissionWatch.Http
