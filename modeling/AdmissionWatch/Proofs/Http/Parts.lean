import AdmissionWatch.Proofs.Basics
import AdmissionWatch.Proofs.Http.Edge

/-!
# The parts of a URL

What follows the scheme of a network address is the server, a path and a query, and each is read apart
from the others (`readAuthority_of_path`, `readRest_query`).
-/

namespace AdmissionWatch.Http

variable {scheme : String} {s rest after : List Char} {query : Option String} {u : Url}

/-! ### Server and path -/

theorem readAuthority_scheme {isNetwork : Bool} (h : readAuthority scheme isNetwork s query = .ok u) :
    u.scheme = scheme := by
  simp only [readAuthority, bind, Except.bind, throw, throwThe, MonadExceptOf.throw, pure, Except.pure] at h
  repeat' split at h
  all_goals cases h
  all_goals rfl

/-- The slashes of a path, of which there are two kinds. -/
def slashed (path : List Char) : List Char :=
  path.map fun c => if endsAuthority true c then '/' else c

theorem getLast?_slashed (s : List Char) : (slashed s).getLast? ≠ some '/' ↔
    ∀ c ∈ s.getLast?, endsAuthority true c = false := by
  rw [slashed, List.getLast?_map]
  cases s.getLast? with
  | none => simp
  | some c =>
    cases hc : endsAuthority true c with
    | false =>
      have hne : c ≠ '/' := by
        rintro rfl
        cases hc
      simp [hc, hne]
    | true => simp [hc]

theorem slashed_append (s t : List Char) : slashed (s ++ t) = slashed s ++ slashed t :=
  List.map_append

theorem slashed_edge (hafter : ∀ c ∈ after, isEdge c) : slashed after = after := by
  conv_rhs => rw [← List.map_id after]
  refine List.map_congr_left fun c hc => ?_
  rw [endsAuthority_of_isEdge (hafter c hc)]
  rfl

/-- Path and query are read apart from the server. -/
theorem readAuthority_eq (scheme : String) (s : List Char) (query : Option String) :
    readAuthority scheme true s query =
      (readAuthority scheme true (s.takeWhile fun c => !endsAuthority true c) none).map fun u =>
        { u with path := readPath (slashed (s.dropWhile fun c => !endsAuthority true c)), query } := by
  have hsame : (s.takeWhile fun c => !endsAuthority true c).takeWhile (fun c => !endsAuthority true c) =
      s.takeWhile fun c => !endsAuthority true c :=
    List.takeWhile_eq_self_iff.mpr fun c hc => List.mem_takeWhile_imp (p := fun c => !endsAuthority true c) hc
  unfold readAuthority
  rw [hsame]
  simp only [bind, Except.bind, throw, throwThe, MonadExceptOf.throw, pure, Except.pure]
  generalize (splitLast? '@' (s.takeWhile fun c => !endsAuthority true c)).getD
    ([], s.takeWhile fun c => !endsAuthority true c) = parts
  obtain ⟨info, address⟩ := parts
  generalize splitPort address = server
  obtain ⟨host, port⟩ := server
  dsimp only
  split
  · rfl
  · cases readHost host with
    | error e => rfl
    | ok host =>
      cases readPort scheme port with
      | error e => rfl
      | ok port => simp [Except.map, slashed]

theorem readAuthority_of_server (hs : ∀ c ∈ s, endsAuthority true c = false) : readAuthority scheme true s query =
    (readAuthority scheme true s none).map fun u => { u with path := "/", query } := by
  have htake : s.takeWhile (fun c => !endsAuthority true c) = s := List.takeWhile_eq_self_iff.mpr (by simpa using hs)
  have hdrop : s.dropWhile (fun c => !endsAuthority true c) = [] := List.dropWhile_eq_nil_iff.mpr (by simpa using hs)
  rw [readAuthority_eq, htake, hdrop]
  rfl

theorem readAuthority_of_path {c : Char} (hs : ∀ c ∈ s, endsAuthority true c = false)
    (hc : endsAuthority true c = true) : readAuthority scheme true (s ++ c :: rest) query =
      (readAuthority scheme true s none).map fun u => { u with path := readPath (slashed (c :: rest)), query } := by
  have hs : ∀ c ∈ s, (!endsAuthority true c) = true := by simpa using hs
  have htake : (s ++ c :: rest).takeWhile (fun c => !endsAuthority true c) = s := by
    rw [List.takeWhile_append_of_pos hs, List.takeWhile_cons_of_neg (by simpa using hc), List.append_nil]
  have hdrop : (s ++ c :: rest).dropWhile (fun c => !endsAuthority true c) = c :: rest := by
    rw [List.dropWhile_append_of_pos hs, List.dropWhile_cons_of_neg (by simpa using hc)]
  rw [readAuthority_eq, htake, hdrop]

theorem readAuthority_nil : readAuthority scheme true [] query ≠ .ok u := by
  intro h
  cases h

theorem readAuthority_query (scheme : String) (s : List Char) (query : Option String) :
    readAuthority scheme true s query = (readAuthority scheme true s none).map fun u => { u with query } := by
  rw [readAuthority_eq scheme s query, readAuthority_eq scheme s none]
  cases readAuthority scheme true (s.takeWhile fun c => !endsAuthority true c) none <;> rfl

/-! ### What follows a scheme -/

theorem readRest_scheme (h : readRest scheme rest = .ok u) : u.scheme = scheme := by
  unfold readRest at h
  dsimp only at h
  split at h
  · exact readAuthority_scheme h
  · split at h
    · exact readAuthority_scheme h
    · cases h
      rfl
    · cases h
      rfl

theorem readRest_network (hscheme : (schemePort? scheme).isSome) (rest : List Char) : readRest scheme rest =
    readAuthority scheme true ((rest.takeWhile (· ≠ '?')).dropWhile (endsAuthority true)) (queryOf rest) :=
  if_pos hscheme

theorem readRest_plain (hscheme : (schemePort? scheme).isSome) (hquery : '?' ∉ rest) :
    readRest scheme rest = readAuthority scheme true (rest.dropWhile (endsAuthority true)) none := by
  have hkept : ∀ c ∈ rest, decide (c ≠ '?') = true := fun c hc => decide_eq_true (ne_of_mem_of_not_mem hc hquery)
  rw [readRest_network hscheme, queryOf, List.takeWhile_eq_self_iff.mpr hkept, List.dropWhile_eq_nil_iff.mpr hkept]

theorem readRest_query (hscheme : (schemePort? scheme).isSome) (hs : '?' ∉ s) (rest : List Char) :
    readRest scheme (s ++ '?' :: rest) =
    (readAuthority scheme true (s.dropWhile (endsAuthority true)) none).map fun u =>
      { u with query := some (String.ofList (percentEncoded notInQuery rest)) } := by
  have hkept : ∀ c ∈ s, decide (c ≠ '?') = true := fun c hc => decide_eq_true (ne_of_mem_of_not_mem hc hs)
  rw [readRest_network hscheme, takeWhile_ne hs, readAuthority_query, queryOf, List.dropWhile_append_of_pos hkept,
    List.dropWhile_cons_of_neg (by simp)]

end AdmissionWatch.Http
