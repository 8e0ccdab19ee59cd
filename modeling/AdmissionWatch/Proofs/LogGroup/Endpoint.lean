import AdmissionWatch.LogGroup.Client
import AdmissionWatch.Proofs.Http.AddedSlash

/-!
# What is signed and what is sent

Calls are signed for the host of the endpoint and the path `/` without a query, and they are sent to the
text of the endpoint with a slash behind it. The host that they are sent to is the one that is signed.
Path and query are the signed ones exactly when the endpoint is the root of a server, without a query, and
takes the slash as its path (`sent_as_signed_iff`): an endpoint with a path of its own is accepted, and
what is sent to it is signed for another path (`base_path_not_signed`).
-/

namespace AdmissionWatch.LogGroup

open Time Http

/-- The text of the URL of the service: the one for the region, or another one without the slashes it
ends in. -/
def endpointText (region : String) (endpoint : Option String) : String :=
  (endpoint.map (Text.trimEndOf '/')).getD (regionEndpoint region)

/-- Whether what goes over the line is what was signed. -/
structure IsSent (signed : Signing.Request) (sent : Sent) : Prop where
  method : sent.method = signed.method
  host : sent.host = signed.host
  target : sent.target = signed.path
  headers : signed.headers ⊆ sent.headers
  body : sent.body.toUTF8.toList = signed.body

namespace Client

variable {region : String} {endpoint : Option String} {credentials : Signing.Credentials} {client : Client}

theorem exists_of_create (h : create region endpoint credentials = .ok client) : ∃ u,
    Url.read (endpointText region endpoint) = .ok u ∧ u.authority? = some client.host ∧
      client.url = endpointText region endpoint ++ "/" := by
  unfold create at h
  dsimp only at h
  split at h
  · cases h
  · rename_i u hread
    split at h
    · cases h
    · rename_i host hhost
      rw [← Except.ok.inj h]
      exact ⟨u, hread, hhost, rfl⟩

section
variable (d : Signing.Digests) (c : Call) (now : Instant)

theorem address?_eq_some_iff {v : Url} : (client.request d c now).address? = some v ↔
    Url.read client.url = .ok v := by
  unfold request Request.address?
  dsimp only
  cases Url.read client.url <;> simp

theorem target_eq_path_iff {u : Url} : u.target = path ↔ u.path = "/" ∧ u.query = none := by
  unfold Url.target path
  cases u.query with
  | none => simp
  | some q =>
    have hmark : u.path ++ "?" ++ q ≠ "/" := by
      intro heq
      have hin : '?' ∈ (u.path ++ "?" ++ q).toList := by simp
      rw [heq] at hin
      exact absurd hin (by decide)
    simp [hmark]

theorem sent?_eq_some {sent : Sent} (h : (client.request d c now).sent? = some sent) : ∃ v user,
    Url.read client.url = .ok v ∧ (v.scheme = "http" ∨ v.scheme = "https") ∧ v.authority? = some sent.host ∧
      sent = ⟨"POST", v.target, sent.host, user ++ (client.request d c now).headers, c.body.text⟩ := by
  unfold Request.sent? at h
  obtain ⟨v, hv, h⟩ := Option.bind_eq_some_iff.mp h
  obtain ⟨host, hhost, h⟩ := Option.bind_eq_some_iff.mp h
  split at h
  · rename_i hwritten
    obtain rfl := Option.some.inj h
    exact ⟨v, _, (address?_eq_some_iff d c now).mp hv, hwritten.1, hhost, rfl⟩
  · cases h

/-- Everything but host and target of a call goes over the line as it was signed. -/
theorem isSent_iff {sent : Sent} (h : (client.request d c now).sent? = some sent) (hhost : sent.host = client.host) :
    IsSent (client.toSign c) sent ↔ sent.target = path := by
  refine ⟨IsSent.target, fun htarget => ?_⟩
  obtain ⟨v, user, -, -, -, hsent⟩ := sent?_eq_some d c now h
  rw [hsent] at hhost htarget ⊢
  refine ⟨rfl, hhost, htarget, fun header hheader => ?_, rfl⟩
  exact List.mem_append_right _ (List.mem_append_left _ (List.mem_append_left _ hheader))

end

theorem sent_as_signed_iff (h : create region endpoint credentials = .ok client) :
    ∃ u, Url.read (endpointText region endpoint) = .ok u ∧
    (∀ d c now sent, (client.request d c now).sent? = some sent → sent.host = (client.toSign c).host ∧
      (IsSent (client.toSign c) sent ↔ u.path = "/" ∧ u.query = none ∧
        TakesSlash (endpointText region endpoint))) ∧
    (u.scheme = "http" ∨ u.scheme = "https" → u.path = "/" → u.query = none →
      TakesSlash (endpointText region endpoint) →
      ∀ d c now, (client.request d c now).address? = some u) := by
  obtain ⟨u, hread, hhost, hurl⟩ := exists_of_create h
  have hnetwork : ∀ {scheme}, scheme = "http" ∨ scheme = "https" → (schemePort? scheme).isSome := by
    rintro _ (rfl | rfl) <;> rfl
  refine ⟨u, hread, fun d c now sent hsent => ?_, fun hscheme hpath hquery htakes d c now => ?_⟩
  · obtain ⟨v, user, hv, hscheme, hauthority, heq⟩ := sent?_eq_some d c now hsent
    have htarget : sent.target = v.target := by rw [heq]
    rw [hurl] at hv
    rw [scheme_of_read_slash hread hv] at hscheme
    have hslash := read_withSlash hread (hnetwork hscheme)
    have hsame : sent.host = client.host := by
      rw [hslash.server v hv, hhost] at hauthority
      exact (Option.some.inj hauthority).symm
    refine ⟨hsame, ?_⟩
    rw [isSent_iff d c now hsent hsame, htarget, target_eq_path_iff]
    constructor
    · rintro ⟨hpath, hquery⟩
      exact hslash.root v hv hpath hquery
    · rintro ⟨hpath, hquery, htakes⟩
      rw [hslash.kept hpath hquery htakes] at hv
      obtain rfl := Except.ok.inj hv
      exact ⟨hpath, hquery⟩
  · rw [address?_eq_some_iff, hurl]
    exact (read_withSlash hread (hnetwork hscheme)).kept hpath hquery htakes

/-- A server that is named with its port and a slash. -/
theorem sent_as_signed_iff_local :
    let client : Client :=
      ⟨"http://127.0.0.1:8080/", "127.0.0.1:8080", ⟨⟨"AKID", "secret", none⟩, "us-east-1", "logs"⟩⟩
    create "us-east-1" (some "http://127.0.0.1:8080/") client.signer.credentials = .ok client ∧
      ∀ d c now, ((client.request d c now).address?.map Url.target = some "/") ∧
        ∀ sent, (client.request d c now).sent? = some sent → IsSent (client.toSign c) sent := by
  intro client
  have hcreate : create "us-east-1" (some "http://127.0.0.1:8080/") client.signer.credentials = .ok client := by
    decide +kernel
  have hroot : Url.read (endpointText "us-east-1" (some "http://127.0.0.1:8080/")) =
      .ok { scheme := "http", host := some "127.0.0.1", port := some 8080, path := "/" } := by decide +kernel
  have htakes : TakesSlash (endpointText "us-east-1" (some "http://127.0.0.1:8080/")) := by decide +kernel
  obtain ⟨u, hread, hsent, haddress⟩ := sent_as_signed_iff hcreate
  obtain rfl := Except.ok.inj (hroot.symm.trans hread)
  refine ⟨hcreate, fun d c now => ⟨?_, fun sent h => (hsent d c now sent h).2.mpr ⟨rfl, rfl, htakes⟩⟩⟩
  rw [haddress (.inl rfl) rfl rfl htakes d c now]
  rfl

/-- A path and a query after the server: the path is not the one that is signed, and no query is. -/
theorem base_path_not_signed :
    let client : Client :=
      ⟨"http://127.0.0.1:8080/base?trace=on/", "127.0.0.1:8080",
        ⟨⟨"AKID", "secret", none⟩, "us-east-1", "logs"⟩⟩
    create "us-east-1" (some "http://127.0.0.1:8080/base?trace=on") client.signer.credentials = .ok client ∧
      ∀ d c now, (client.toSign c).path = "/" ∧ ∃ u, (client.request d c now).address? = some u ∧
        u.path = "/base" ∧ u.query = some "trace=on/" := by
  intro client
  have hread : Url.read client.url =
      .ok
        { scheme := "http", host := some "127.0.0.1", port := some 8080, path := "/base",
          query := some "trace=on/" } := by
    decide +kernel
  exact ⟨by decide +kernel, fun d c now => ⟨rfl, _, (address?_eq_some_iff d c now).mpr hread, rfl, rfl⟩⟩

end Client

end AdmissionWatch.LogGroup
