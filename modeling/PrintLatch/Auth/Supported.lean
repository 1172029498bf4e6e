/-
  PrintLatch.Auth.Supported

  Which origins `normalize_origin` (`src/auth.rs`) takes, against the ones the
  documentation supports (`docs/troubleshooting.md`).

  The `url` crate follows the URL standard: it parses into a `UrlRecord`, and its
  accessors are `accessors`.  An IPv6 host is read with its brackets, so the `"::1"` of
  `isLoopback` is no host at all.
-/

import PrintLatch.Auth.Agreement
import PrintLatch.Text.Host

namespace PrintLatch

open Text

/-- What the accessors of the `url` crate return for a record. -/
def accessors (u : UrlRecord) : Url where
  scheme := u.scheme
  username := u.username
  password := if u.password = "" then none else some u.password
  host := u.host.map Host.serialize
  port := u.port
  path := u.path
  query := u.query
  fragment := u.fragment

/-! ## The supported origins -/

/-- `localhost`. -/
def localhost : Domain := ⟨"localhost", by decide, by decide, by decide⟩

/-- `127.0.0.1`. -/
def loopbackIpv4 : Ipv4 := ⟨127, 0, 0, 1⟩

/-- `::1`. -/
def loopbackIpv6 : Ipv6 := ⟨[0, 0, 0, 0, 0, 0, 0, 1], rfl⟩

/-- The loopback development hosts. -/
def developmentHosts : List Host := [.domain localhost, .ipv4 loopbackIpv4, .ipv6 loopbackIpv6]

/-- A URL with a host and nothing behind it. -/
structure Bare (u : UrlRecord) : Prop where
  username : u.username = ""
  password : u.password = ""
  query : u.query = none
  fragment : u.fragment = none
  path : u.path = "/"

/-- A URL whose origin is supported. -/
structure Supported (u : UrlRecord) : Prop where
  bare : Bare u
  scheme : u.scheme = "https" ∨ u.scheme = "http" ∧ ∃ host ∈ developmentHosts, u.host = some host

/-- The value is taken when its URL is supported and only then, as the origin of the URL. -/
def TakesSupported (parse : String → Option UrlRecord) (value : String) : Prop :=
  let normalized := normalizeOrigin (fun s => (parse s).map accessors) value
  ((∃ n, normalized = .ok n) ↔ ∃ u, parse value = some u ∧ Supported u) ∧
    ∀ u n, parse value = some u → normalized = .ok n → n = serializeOrigin u.origin

/-! ## The taken ones -/

/-- The hosts that `isLoopback` knows. -/
theorem isLoopback_serialize {host : Host} (hspecial : host.special = true) :
    isLoopback host.serialize = true ↔ host = .domain localhost ∨ host = .ipv4 loopbackIpv4 := by
  have hlocalhost : host.serialize = "localhost" ↔ host = .domain localhost :=
    @Host.serialize_eq_domain _ hspecial localhost
  have hipv4 : host.serialize = "127.0.0.1" ↔ host = .ipv4 loopbackIpv4 :=
    @Host.serialize_eq_ipv4 _ hspecial loopbackIpv4
  -- no host is written without the brackets
  have hipv6 : host.serialize ≠ "::1" :=
    Host.serialize_ne_of_colon hspecial (by decide) (by decide)
  simp [isLoopback, hlocalhost, hipv4, hipv6]

/-- The host of a web URL. -/
theorem host_of_web {u : UrlRecord} (hweb : u.scheme = "http" ∨ u.scheme = "https") :
    ∃ host, u.host = some host ∧ host.special = true :=
  Option.any_eq_true _ _ |>.mp (u.web hweb)

theorem serializeOrigin_of_web {u : UrlRecord} (hweb : u.scheme = "http" ∨ u.scheme = "https")
    {host : Host} (hhost : u.host = some host) :
    serializeOrigin u.origin = originText u.scheme host.serialize u.port := by
  have htuple : u.scheme ∈ ["ftp", "http", "https", "ws", "wss"] := by
    rcases hweb with heq | heq <;> simp [heq]
  unfold UrlRecord.origin
  rw [if_pos htuple, hhost]
  cases hport : u.port with
  | none =>
      show u.scheme ++ "://" ++ host.serialize ++ "" = u.scheme ++ "://" ++ host.serialize
      rw [String.append_empty]
  | some port =>
      show u.scheme ++ "://" ++ host.serialize ++ (":" ++ toString port) =
        u.scheme ++ "://" ++ host.serialize ++ ":" ++ toString port
      rw [← String.append_assoc]

theorem normalParts_accessors {u : UrlRecord} {name : String} :
    NormalParts (accessors u) name ↔ Bare u ∧ ∃ host, u.host = some host ∧
      host.serialize = name ∧
      (u.scheme = "https" ∨ u.scheme = "http" ∧ isLoopback name = true) := by
  constructor
  · intro h
    have hpassword : u.password = "" := by
      have := h.password
      by_contra hne
      simp [accessors, hne] at this
    obtain ⟨host, hhost, hname⟩ := Option.map_eq_some_iff.mp h.named
    exact ⟨⟨h.username, hpassword, h.query, h.fragment, h.path⟩, host, hhost, hname, h.scheme⟩
  · rintro ⟨hbare, host, hhost, hname, hscheme⟩
    exact
      { username := hbare.username
        password := if_pos hbare.password
        query := hbare.query
        fragment := hbare.fragment
        path := hbare.path
        named := by
          show u.host.map Host.serialize = _
          rw [hhost, ← hname]
          rfl
        scheme := hscheme }

/-- The host of a web URL that `normalize_origin` takes. -/
structure TakenHost (u : UrlRecord) : Prop where
  bare : Bare u
  scheme : u.scheme = "https" ∨ u.scheme = "http" ∧
    (u.host = some (.domain localhost) ∨ u.host = some (.ipv4 loopbackIpv4))

theorem normalParts_iff {u : UrlRecord} :
    (∃ name, NormalParts (accessors u) name) ↔ TakenHost u := by
  constructor
  · rintro ⟨name, h⟩
    obtain ⟨hbare, host, hhost, rfl, hscheme⟩ := normalParts_accessors.mp h
    refine ⟨hbare, hscheme.imp_right fun ⟨hhttp, hloopback⟩ => ⟨hhttp, ?_⟩⟩
    obtain ⟨host', hhost', hspecial⟩ := host_of_web (Or.inl hhttp)
    obtain rfl : host = host' := Option.some.inj (hhost.symm.trans hhost')
    rw [hhost]
    exact ((isLoopback_serialize hspecial).mp hloopback).imp (congrArg some) (congrArg some)
  · rintro ⟨hbare, hscheme⟩
    obtain ⟨host, hhost, hspecial⟩ := host_of_web (hscheme.symm.imp_left And.left)
    refine ⟨host.serialize, normalParts_accessors.mpr ⟨hbare, host, hhost, rfl,
      hscheme.imp_right fun ⟨hhttp, hloopback⟩ => ⟨hhttp, ?_⟩⟩⟩
    rw [hhost] at hloopback
    exact (isLoopback_serialize hspecial).mpr (hloopback.imp Option.some.inj Option.some.inj)

section

variable (parse : String → Option UrlRecord) (value : String)

/-- What `normalize_origin` takes. -/
theorem normalizeOrigin_accessors_iff :
    (∃ n, normalizeOrigin (fun s => (parse s).map accessors) value = .ok n) ↔
      ∃ u, parse value = some u ∧ TakenHost u := by
  constructor
  · rintro ⟨n, h⟩
    obtain ⟨url, name, hurl, hparts, -⟩ := normalizeOrigin_eq_ok.mp h
    obtain ⟨u, hparse, rfl⟩ := Option.map_eq_some_iff.mp hurl
    exact ⟨u, hparse, normalParts_iff.mp ⟨name, hparts⟩⟩
  · rintro ⟨u, hparse, htaken⟩
    obtain ⟨name, hparts⟩ := normalParts_iff.mpr htaken
    exact ⟨_, normalizeOrigin_eq_ok.mpr
      ⟨accessors u, name, Option.map_eq_some_iff.mpr ⟨u, hparse, rfl⟩, hparts, rfl⟩⟩

/-- What it returns is the serialization of the URL's origin. -/
theorem serializeOrigin_of_normalizeOrigin {u : UrlRecord} {n : String}
    (hparse : parse value = some u)
    (h : normalizeOrigin (fun s => (parse s).map accessors) value = .ok n) :
    n = serializeOrigin u.origin := by
  obtain ⟨url, name, hurl, hparts, rfl⟩ := normalizeOrigin_eq_ok.mp h
  obtain ⟨u', hparse', rfl⟩ := Option.map_eq_some_iff.mp hurl
  obtain rfl : u = u' := Option.some.inj (hparse.symm.trans hparse')
  obtain ⟨-, host, hhost, rfl, -⟩ := normalParts_accessors.mp hparts
  exact (serializeOrigin_of_web hparts.web hhost).symm

/-- **`normalize_origin` takes the supported origins, but for the IPv6 loopback host**: it
    refuses the bare `http` URL of that host, on any port, and is right about any other
    value. -/
theorem takesSupported_iff :
    TakesSupported parse value ↔ ¬ ∃ u, parse value = some u ∧ Bare u ∧ u.scheme = "http" ∧
      u.host = some (.ipv6 loopbackIpv6) := by
  constructor
  · rintro ⟨htakes, -⟩ ⟨u, hparse, hbare, hhttp, hhost⟩
    -- the URL is supported, so it would have to be taken
    have hsupported : Supported u :=
      ⟨hbare, Or.inr ⟨hhttp, .ipv6 loopbackIpv6, by simp [developmentHosts], hhost⟩⟩
    obtain ⟨u', hparse', htaken⟩ := (normalizeOrigin_accessors_iff parse value).mp
      (htakes.mpr ⟨u, hparse, hsupported⟩)
    obtain rfl : u = u' := Option.some.inj (hparse.symm.trans hparse')
    rcases htaken.scheme with hhttps | ⟨-, hloopback⟩
    · rw [hhttp] at hhttps
      exact absurd hhttps (by decide)
    · rw [hhost] at hloopback
      simp at hloopback
  · intro hno
    refine ⟨?_, fun u n hparse h => serializeOrigin_of_normalizeOrigin parse value hparse h⟩
    rw [normalizeOrigin_accessors_iff]
    refine exists_congr fun u => and_congr_right fun hparse => ⟨fun htaken => ?_, fun h => ?_⟩
    · refine ⟨htaken.bare, htaken.scheme.imp_right fun ⟨hhttp, hloopback⟩ => ⟨hhttp, ?_⟩⟩
      rcases hloopback with hhost | hhost
      · exact ⟨_, by simp [developmentHosts], hhost⟩
      · exact ⟨_, by simp [developmentHosts], hhost⟩
    · refine ⟨h.bare, h.scheme.imp_right fun ⟨hhttp, host, hmem, hhost⟩ => ⟨hhttp, ?_⟩⟩
      have hcases : host = .domain localhost ∨ host = .ipv4 loopbackIpv4 ∨
          host = .ipv6 loopbackIpv6 := by simpa [developmentHosts] using hmem
      rcases hcases with rfl | rfl | rfl
      · exact Or.inl hhost
      · exact Or.inr hhost
      · exact absurd ⟨u, hparse, h.bare, hhttp, hhost⟩ hno

end

/-- The record of `http://[::1]:3000`. -/
def ipv6Development : UrlRecord where
  scheme := "http"
  username := ""
  password := ""
  host := some (.ipv6 loopbackIpv6)
  port := some 3000
  path := "/"
  query := none
  fragment := none
  web := fun _ => rfl

example : serializeOrigin ipv6Development.origin = "http://[::1]:3000" := by decide

/-- The development origin of an IPv6 loopback server is refused. -/
theorem not_takesSupported_ipv6 :
    ¬ TakesSupported (fun s => if s = "http://[::1]:3000" then some ipv6Development else none)
      "http://[::1]:3000" := by
  rintro ⟨htakes, -⟩
  obtain ⟨n, hn⟩ := htakes.mpr ⟨ipv6Development, rfl, ⟨rfl, rfl, rfl, rfl, rfl⟩,
    Or.inr ⟨rfl, .ipv6 loopbackIpv6, by decide, rfl⟩⟩
  have hrefused : normalizeOrigin (fun s => (if s = "http://[::1]:3000" then
      some ipv6Development else none).map accessors) "http://[::1]:3000" =
      .error "browser origins must use HTTPS, except localhost development origins" := by
    decide
  rw [hrefused] at hn
  cases hn

end PrintLatch
