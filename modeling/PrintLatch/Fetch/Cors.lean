/-
  PrintLatch.Fetch.Cors

  What a page may fetch from another origin: the CORS protocol of the Fetch standard, for
  requests without credentials, which is what `fetch` sends across origins by default.

  The server is a function from its state and a request, here a method and its headers, to
  a state and a reply.  A request that is not simple, and with Private Network Access every
  one from a public page to a private server, is announced by a preflight; only if the
  server allows it there is the request itself sent.  Whatever was sent, the page gets the
  reply only if that one allows its origin.  Names of headers are in lower case.
-/

import PrintLatch.Text.Utf8
import Mathlib.Data.List.Basic

namespace Fetch

open Text

/-- The header list of a request. -/
abbrev Headers := List (String × List UInt8)

/-- A response: its status, its headers by name, and the rest. -/
structure Reply (α : Type*) where
  status : Nat
  header : String → Option String
  content : α

/-- Which headers a page may add without asking.  The standard lists them by name and by
    value: `Authorization` is not among them, and a `Content-Type` is if it names one of the
    three types of a form.  `essence` is the type that a value names. -/
structure Safelist where
  safe : String × List UInt8 → Bool
  essence : List UInt8 → Option String
  authorization : ∀ value, safe ("authorization", value) = false
  contentType : ∀ value, safe ("content-type", value) = true →
    essence value = some "application/x-www-form-urlencoded" ∨
      essence value = some "multipart/form-data" ∨ essence value = some "text/plain"

/-! ## Requests -/

/-- A letter in lower case. -/
def lowerChar (c : Char) : Char := if 'A' ≤ c ∧ c ≤ 'Z' then Char.ofNat (c.toNat + 32) else c

/-- A text in lower case. -/
def lower (text : String) : String := String.ofList (text.toList.map lowerChar)

/-- The items of a header that is a list, without the blanks around them. -/
def listItems (value : String) : List String :=
  (value.toList.splitOn ',').map fun item =>
    String.ofList ((item.dropWhile (· = ' ')).reverse.dropWhile (· = ' ')).reverse

/-- Headers that the browser takes from no page; most of them it sets itself. -/
def isForbidden (header : String × List UInt8) : Bool :=
  header.1 ∈ ["accept-charset", "accept-encoding", "access-control-request-headers",
    "access-control-request-method", "access-control-request-private-network", "connection",
    "content-length", "cookie", "cookie2", "date", "dnt", "expect", "host", "keep-alive", "origin",
    "referer", "set-cookie", "te", "trailer", "transfer-encoding", "upgrade", "via"] ||
    "proxy-".toList.isPrefixOf header.1.toList || "sec-".toList.isPrefixOf header.1.toList ||
    -- a method in disguise
    (header.1 ∈ ["x-http-method", "x-http-method-override", "x-method-override"] &&
      (listItems (ofAscii header.2)).any fun method => lower method ∈ ["connect", "trace", "track"])

/-- What is sent of a page's headers. -/
def permitted (headers : Headers) : Headers := headers.filter fun header => !isForbidden header

/-- A CORS-safelisted method. -/
def isSafeMethod (method : String) : Bool := method ∈ ["GET", "HEAD", "POST"]

section

variable (safelist : Safelist)

/-- The CORS-unsafe request-header names. -/
def unsafeNames (headers : Headers) : List String :=
  (headers.filter fun header => !safelist.safe header).map (·.1)

/-- The request is announced by a preflight; `privateNetwork` is set when the page is on a
    public network and the server is not. -/
def announced (method : String) (headers : Headers) (privateNetwork : Bool) : Bool :=
  !isSafeMethod method || unsafeNames safelist headers ≠ [] || privateNetwork

/-- The headers of the preflight. -/
def preflightHeaders (origin method : String) (headers : Headers) (privateNetwork : Bool) :
    Headers :=
  [("origin", utf8 origin), ("access-control-request-method", utf8 method)] ++
    (if unsafeNames safelist headers = [] then []
      else [("access-control-request-headers",
        utf8 (String.intercalate "," (unsafeNames safelist headers)))]) ++
    if privateNetwork then [("access-control-request-private-network", utf8 "true")] else []

end

/-! ## Replies -/

/-- The items of a header of the reply, in lower case. -/
def Reply.names {α : Type*} (reply : Reply α) (name : String) : List String :=
  (listItems ((reply.header name).getD "")).map lower

/-- The CORS check. -/
def corsCheck {α : Type*} (origin : String) (reply : Reply α) : Bool :=
  reply.header "access-control-allow-origin" = some "*" ∨
    reply.header "access-control-allow-origin" = some origin

section

variable (safelist : Safelist) {σ α : Type*}

/-- The reply to the preflight allows the request. -/
def preflightPasses (origin method : String) (headers : Headers) (privateNetwork : Bool)
    (reply : Reply α) : Bool :=
  let methods := listItems ((reply.header "access-control-allow-methods").getD "")
  let names := reply.names "access-control-allow-headers"
  corsCheck origin reply && (200 ≤ reply.status && reply.status ≤ 299) &&
    (isSafeMethod method || method ∈ methods || "*" ∈ methods) &&
    -- the wildcard does not stand for `Authorization`
    (headers.all fun header => header.1 ≠ "authorization" || "authorization" ∈ names) &&
    ((unsafeNames safelist headers).all fun name => name ∈ names || "*" ∈ names) &&
    (!privateNetwork ||
      reply.header "access-control-allow-private-network" = some "true")

/-! ## The fetch -/

variable (deliver : σ → String → Headers → σ × Reply α)

/-- The request itself, and what the page gets of the reply. -/
def sendActual (s : σ) (origin method : String) (headers : Headers) : σ × Option (Reply α) :=
  let answered := deliver s method (("origin", utf8 origin) :: headers)
  (answered.1, if corsCheck origin answered.2 then some answered.2 else none)

/-- A fetch of a page at `origin` to another one. -/
def crossOriginFetch (s : σ) (origin method : String) (headers : Headers)
    (privateNetwork : Bool) : σ × Option (Reply α) :=
  let sent := permitted headers
  if announced safelist method sent privateNetwork then
    let asked := deliver s "OPTIONS"
      (preflightHeaders safelist origin method sent privateNetwork)
    if preflightPasses safelist origin method sent privateNetwork asked.2 then
      sendActual deliver asked.1 origin method sent
    else (asked.1, none)
  else sendActual deliver s origin method sent

/-! ## Laws -/

theorem corsCheck_iff {origin : String} {reply : Reply α} :
    corsCheck origin reply = true ↔
      reply.header "access-control-allow-origin" = some "*" ∨
        reply.header "access-control-allow-origin" = some origin := by
  simp [corsCheck]

theorem not_isForbidden_of_mem {headers : Headers} {header : String × List UInt8}
    (h : header ∈ permitted headers) : isForbidden header = false := by
  simpa using (List.mem_filter.mp h).2

/-- What is sent unannounced is safe. -/
theorem safe_of_not_announced {method : String} {headers : Headers} {privateNetwork : Bool}
    (h : announced safelist method headers privateNetwork = false) :
    isSafeMethod method = true ∧ unsafeNames safelist headers = [] := by
  simp only [announced, Bool.or_eq_false_iff, Bool.not_eq_false', decide_eq_false_iff_not,
    ne_eq, not_not] at h
  exact ⟨h.1.1, h.1.2⟩

theorem safe_of_mem {headers : Headers} (h : unsafeNames safelist headers = [])
    {header : String × List UInt8} (hmem : header ∈ headers) : safelist.safe header = true := by
  by_contra hunsafe
  have hname : header.1 ∈ unsafeNames safelist headers :=
    List.mem_map_of_mem (List.mem_filter.mpr ⟨hmem, by simpa using hunsafe⟩)
  rw [h] at hname
  exact List.not_mem_nil hname

theorem mem_unsafeNames {headers : Headers} {name : String} :
    name ∈ unsafeNames safelist headers ↔
      ∃ value, (name, value) ∈ headers ∧ safelist.safe (name, value) = false := by
  simp [unsafeNames]

/-- A reply that does not allow the origin stays with the browser. -/
theorem sendActual_of_refused {s : σ} {origin method : String} {headers : Headers}
    (h : corsCheck origin (deliver s method (("origin", utf8 origin) :: headers)).2 = false) :
    sendActual deliver s origin method headers =
      ((deliver s method (("origin", utf8 origin) :: headers)).1, none) := by
  simp [sendActual, h]

theorem sendActual_of_allowed {s : σ} {origin method : String} {headers : Headers}
    (h : corsCheck origin (deliver s method (("origin", utf8 origin) :: headers)).2 = true) :
    sendActual deliver s origin method headers =
      ((deliver s method (("origin", utf8 origin) :: headers)).1,
        some (deliver s method (("origin", utf8 origin) :: headers)).2) := by
  simp [sendActual, h]

section

variable {deliver} {s : σ} {origin method : String} {headers : Headers} {privateNetwork : Bool}

/-- Where the preflight leaves no trace and allows the request, the fetch is the request. -/
theorem crossOriginFetch_of_passes
    (h : announced safelist method (permitted headers) privateNetwork = true →
      let asked := deliver s "OPTIONS"
        (preflightHeaders safelist origin method (permitted headers) privateNetwork)
      asked.1 = s ∧
        preflightPasses safelist origin method (permitted headers) privateNetwork asked.2 = true) :
    crossOriginFetch safelist deliver s origin method headers privateNetwork =
      sendActual deliver s origin method (permitted headers) := by
  unfold crossOriginFetch
  by_cases hannounced : announced safelist method (permitted headers) privateNetwork = true
  · obtain ⟨hstate, hpasses⟩ := h hannounced
    simp only [hannounced, hpasses, hstate, if_true]
  · simp only [hannounced, if_false, Bool.false_eq_true]

/-- Where it does not, nothing else is sent. -/
theorem crossOriginFetch_of_refused
    (hannounced : announced safelist method (permitted headers) privateNetwork = true)
    (hrefused : preflightPasses safelist origin method (permitted headers) privateNetwork
      (deliver s "OPTIONS"
        (preflightHeaders safelist origin method (permitted headers) privateNetwork)).2 = false) :
    crossOriginFetch safelist deliver s origin method headers privateNetwork =
      ((deliver s "OPTIONS"
        (preflightHeaders safelist origin method (permitted headers) privateNetwork)).1, none) := by
  unfold crossOriginFetch
  simp only [hannounced, hrefused, if_true, Bool.false_eq_true, if_false]

theorem crossOriginFetch_of_simple
    (h : announced safelist method (permitted headers) privateNetwork = false) :
    crossOriginFetch safelist deliver s origin method headers privateNetwork =
      sendActual deliver s origin method (permitted headers) := by
  unfold crossOriginFetch
  simp only [h, Bool.false_eq_true, if_false]

end

end

end Fetch
