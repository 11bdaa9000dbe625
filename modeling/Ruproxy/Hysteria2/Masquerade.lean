/-
  Hysteria2/Masquerade.lean --- what a client without a password sees of `hysteria2/server.rs`.

  A request that is no login is answered as a web server answers it: with a fixed page, or
  with what another web server answers.  That one is asked with the fields of the request, and
  its answer is framed anew, since HTTP/3 has no chunked bodies.

  `Uri::parse` and the other web server come from outside and are parameters, as the map of
  header fields is.
-/
import Ruproxy.Foundation.Http
import Ruproxy.Xhttp.Path

set_option autoImplicit false

namespace Ruproxy.Hysteria2

open Ruproxy.Foundation Ruproxy.Foundation.Http

/-! ## Requests and responses -/

/-- `http::Request<()>`, as far as it is looked at. -/
structure HttpRequest (H : Type) where
  method : String
  /-- `uri().host()` -/
  host : Option String
  /-- `uri().path()` -/
  path : String
  /-- `uri().path_and_query()` -/
  pathAndQuery : Option String
  headers : H

/-- `MasqResponse`, with the status out of its headers. -/
structure MasqResponse (H : Type) where
  status : Nat
  headers : H
  body : Bytes
  deriving DecidableEq

/-- `hyper::Uri`, as far as it is looked at. -/
structure Uri where
  text : String
  host : Option String
  port : Option UInt16

/-- The request to the other web server. -/
structure OutgoingRequest (H : Type) where
  method : String
  uri : Uri
  headers : H

/-- Its answer; there is no body where reading it fails. -/
structure UpstreamResponse (H : Type) where
  status : Nat
  headers : H
  body : Option Bytes

/-- What `masquerade_proxy` calls. -/
structure Web (H : Type) where
  parse : String → Option Uri
  /-- `none` for an error of the client -/
  request : OutgoingRequest H → Option (UpstreamResponse H)

/-- `MasqueradeProxy`. -/
structure MasqueradeProxy where
  url : String
  rewriteHost : Bool

/-- `MasqueradeConfig`. -/
structure MasqueradeConfig where
  type : String
  proxy : Option MasqueradeProxy

/-! ## The functions -/

section Functions

variable {H : Type} [HeaderMap H]

/-- The pages that the server has itself. -/
def masqueradePage (status : Nat) (title : String) : MasqResponse H :=
  let body := asBytes ("<html><body><h1>" ++ title ++ "</h1></body></html>")
  let headers := HeaderMap.append HeaderMap.new "server" (asBytes "nginx/1.24.0")
  let headers := HeaderMap.append headers "content-type" (asBytes "text/html; charset=utf-8")
  { status
    headers := HeaderMap.append headers "content-length" (asBytes (dec body.length))
    body }

/-- `masquerade_404`. -/
def masquerade404 : MasqResponse H := masqueradePage 404 "404 Not Found"

/-- `masquerade_502`. -/
def masquerade502 : MasqResponse H := masqueradePage 502 "502 Bad Gateway"

/-- The value of `Host` for a target. -/
def hostValue (host : String) (port : Option UInt16) : String :=
  match port with
  | some port => host ++ ":" ++ dec port.toNat
  | none => host

/-- The request that `masquerade_proxy` builds, unless a field is not valid. -/
def outgoingRequest (req : HttpRequest H) (uri : Uri) (rewriteHost : Bool) :
    Option (OutgoingRequest H) :=
  let headers := copy (if rewriteHost then ["host"] else []) (HeaderMap.iter req.headers)
    HeaderMap.new
  match rewriteHost, uri.host with
  | true, some host =>
      (HeaderMap.tryFrom (H := H) (hostValue host uri.port)).map fun value =>
        ⟨req.method, uri, HeaderMap.append headers "host" value⟩
  | _, _ => some ⟨req.method, uri, headers⟩

/-- `StatusCode::is_redirection`. -/
def isRedirection (status : Nat) : Prop := 300 ≤ status ∧ status < 400

instance (status : Nat) : Decidable (isRedirection status) :=
  inferInstanceAs (Decidable (_ ∧ _))

/-- The response that `masquerade_proxy` makes of a redirection. -/
def redirect (status : Nat) (headers : H) : MasqResponse H where
  status := status
  headers :=
    match HeaderMap.get headers "location" with
    | some loc => HeaderMap.append HeaderMap.new "location" loc
    | none => HeaderMap.new
  body := []

/-- The response that `masquerade_proxy` makes of an answer with a body. -/
def reframe (status : Nat) (headers : H) (body : Bytes) : MasqResponse H :=
  let copied := copy ["transfer-encoding", "content-length"] (HeaderMap.iter headers)
    HeaderMap.new
  let typed := if HeaderMap.containsKey headers "content-type" then copied
    else HeaderMap.append copied "content-type" (asBytes "application/octet-stream")
  { status
    headers := HeaderMap.append typed "content-length" (asBytes (dec body.length))
    body }

/-- `masquerade_proxy`. -/
def masqueradeProxy (web : Web H) (req : HttpRequest H) (targetBase : String)
    (rewriteHost : Bool) : MasqResponse H :=
  let targetUrl := Xhttp.trimEndMatches '/' targetBase ++ req.pathAndQuery.getD "/"
  match web.parse targetUrl with
  | none => masquerade404
  | some uri =>
      match outgoingRequest req uri rewriteHost with
      | none => masquerade404
      | some outgoing =>
          match web.request outgoing with
          | none => masquerade502
          | some resp =>
              if isRedirection resp.status then redirect resp.status resp.headers
              else
                match resp.body with
                | none => masquerade502
                | some body => reframe resp.status resp.headers body

/-- `masquerade`, up to the response that it sends. -/
def masquerade (web : Web H) (cfg : MasqueradeConfig) (req : HttpRequest H) : MasqResponse H :=
  if cfg.type = "proxy" then
    match cfg.proxy with
    | some proxy => masqueradeProxy web req proxy.url proxy.rewriteHost
    | none => masquerade404
  else masquerade404

end Functions

/-! ## What is sent -/

variable {H : Type} [HeaderMap H]

/-- The body of a response is told by its length, and has a type. -/
structure MasqResponse.Framed (r : MasqResponse H) : Prop where
  length_eq : getAll r.headers "content-length" = [asBytes (dec r.body.length)]
  unchunked : getAll r.headers "transfer-encoding" = []
  typed : getAll r.headers "content-type" ≠ []

theorem framed_masqueradePage (hlaws : HeaderMap.Lawful H) (status : Nat) (title : String) :
    (masqueradePage status title : MasqResponse H).Framed := by
  constructor
  · simp [masqueradePage, hlaws.getAll_append, hlaws.getAll_new]
  · simp [masqueradePage, hlaws.getAll_append, hlaws.getAll_new]
  · simp [masqueradePage, hlaws.getAll_append, hlaws.getAll_new]

theorem getAll_reframe (hlaws : HeaderMap.Lawful H) (status : Nat) (headers : H) (body : Bytes)
    (name : String) :
    getAll (reframe status headers body).headers name =
      (if name ∈ ["transfer-encoding", "content-length"] then [] else getAll headers name) ++
        ((if HeaderMap.containsKey headers "content-type" then []
          else if "content-type" = name then [asBytes "application/octet-stream"] else []) ++
            if "content-length" = name then [asBytes (dec body.length)] else []) := by
  unfold reframe
  dsimp only
  rw [hlaws.getAll_append, ← List.append_assoc]
  refine congrArg (· ++ _) ?_
  split
  · rw [getAll_copy_new hlaws, List.append_nil]
  · rw [hlaws.getAll_append, getAll_copy_new hlaws]

theorem framed_reframe (hlaws : HeaderMap.Lawful H) (status : Nat) (headers : H) (body : Bytes) :
    (reframe status headers body).Framed := by
  constructor
  · rw [getAll_reframe hlaws]
    simp [reframe]
  · rw [getAll_reframe hlaws]
    simp
  · rw [getAll_reframe hlaws]
    cases hcontains : HeaderMap.containsKey headers "content-type" with
    | true =>
      have htyped := (hlaws.containsKey_iff headers "content-type").mp hcontains
      simpa using htyped
    | false => simp

/-- The other web server is asked as the client has asked, but for `Host` where that is
rewritten to the host of the target. -/
structure Forwards (req : HttpRequest H) (uri : Uri) (rewriteHost : Bool)
    (outgoing : OutgoingRequest H) : Prop where
  method_eq : outgoing.method = req.method
  uri_eq : outgoing.uri = uri
  others_eq : ∀ name, name ≠ "host" → getAll outgoing.headers name = getAll req.headers name
  host_eq : getAll outgoing.headers "host" =
    if rewriteHost then uri.host.toList.map fun host => asBytes (hostValue host uri.port)
    else getAll req.headers "host"

theorem forwards_outgoingRequest (hlaws : HeaderMap.Lawful H) {req : HttpRequest H} {uri : Uri}
    {rewriteHost : Bool} {outgoing : OutgoingRequest H}
    (h : outgoingRequest req uri rewriteHost = some outgoing) :
    Forwards req uri rewriteHost outgoing := by
  unfold outgoingRequest at h
  cases rewriteHost with
  | false =>
    cases h
    refine ⟨rfl, rfl, fun name _ => ?_, ?_⟩
    · rw [getAll_copy_new hlaws]
      rfl
    · rw [getAll_copy_new hlaws]
      rfl
  | true =>
    cases hhost : uri.host with
    | none =>
      simp only [hhost] at h
      cases h
      refine ⟨rfl, rfl, fun name hne => ?_, ?_⟩
      · rw [getAll_copy_new hlaws, if_neg (by simpa using hne)]
      · rw [getAll_copy_new hlaws, hhost]
        rfl
    | some host =>
      simp only [hhost] at h
      obtain ⟨value, hvalue, rfl⟩ := Option.map_eq_some_iff.mp h
      obtain rfl := hlaws.tryFrom_eq _ _ hvalue
      refine ⟨rfl, rfl, fun name hne => ?_, ?_⟩
      · rw [hlaws.getAll_append, getAll_copy_new hlaws, if_neg hne.symm, List.append_nil,
          if_neg (by simpa using hne)]
      · rw [hlaws.getAll_append, getAll_copy_new hlaws, hhost]
        rfl

/-- The client gets the answer of the other web server with a frame of its own. -/
structure Relays (resp : UpstreamResponse H) (r : MasqResponse H) : Prop where
  status_eq : r.status = resp.status
  body_eq : resp.body = some r.body
  others_eq : ∀ name ∉ ["transfer-encoding", "content-length", "content-type"],
    getAll r.headers name = getAll resp.headers name
  type_eq : getAll resp.headers "content-type" ≠ [] →
    getAll r.headers "content-type" = getAll resp.headers "content-type"

theorem relays_reframe (hlaws : HeaderMap.Lawful H) {resp : UpstreamResponse H} {body : Bytes}
    (h : resp.body = some body) : Relays resp (reframe resp.status resp.headers body) where
  status_eq := rfl
  body_eq := h
  others_eq name hname := by
    simp only [List.mem_cons, List.not_mem_nil, or_false, not_or] at hname
    obtain ⟨htransfer, hlength, htype⟩ := hname
    rw [getAll_reframe hlaws, if_neg (by simp [htransfer, hlength]), if_neg (Ne.symm htype),
      if_neg (Ne.symm hlength), ite_self]
    exact List.append_nil _
  type_eq htyped := by
    have hcontains := (hlaws.containsKey_iff resp.headers "content-type").mpr htyped
    rw [getAll_reframe hlaws, if_pos hcontains, if_neg (by decide), if_neg (by decide)]
    exact List.append_nil _

/-- The client gets the status and the target of a redirection, and nothing else. -/
structure Redirects (resp : UpstreamResponse H) (r : MasqResponse H) : Prop where
  redirects : isRedirection r.status
  status_eq : r.status = resp.status
  headers_eq : ∀ name, getAll r.headers name =
    if name = "location" then (getAll resp.headers "location").head?.toList else []
  body_eq : r.body = []

theorem redirects_redirect (hlaws : HeaderMap.Lawful H) {resp : UpstreamResponse H}
    (h : isRedirection resp.status) : Redirects resp (redirect resp.status resp.headers) where
  redirects := h
  status_eq := rfl
  headers_eq name := by
    unfold redirect
    dsimp only
    rw [← hlaws.get_eq]
    cases HeaderMap.get resp.headers "location" with
    | some loc =>
      rw [hlaws.getAll_append, hlaws.getAll_new, List.nil_append]
      simp only [eq_comm, Option.toList_some]
    | none =>
      rw [hlaws.getAll_new, Option.toList_none, ite_self]
  body_eq := rfl

/-- The answer of the other web server, to the request of the client. -/
def IsRelayed (web : Web H) (cfg : MasqueradeConfig) (req : HttpRequest H) (r : MasqResponse H) :
    Prop :=
  ∃ proxy uri outgoing resp, cfg.proxy = some proxy ∧
    web.parse (Xhttp.trimEndMatches '/' proxy.url ++ req.pathAndQuery.getD "/") = some uri ∧
      Forwards req uri proxy.rewriteHost outgoing ∧ web.request outgoing = some resp ∧
        (Redirects resp r ∨ (r.Framed ∧ Relays resp r))

/-- **Masquerade.**  Whatever is asked and whatever the other web server answers, the response
is one of the two pages, or that answer: with all of its fields, under exactly one length, which
is that of the body, and never chunked. -/
theorem masquerade_answers (hlaws : HeaderMap.Lawful H) (web : Web H) (cfg : MasqueradeConfig)
    (req : HttpRequest H) :
    ((masquerade web cfg req = masquerade404 ∨ masquerade web cfg req = masquerade502) ∧
      (masquerade web cfg req).Framed) ∨ IsRelayed web cfg req (masquerade web cfg req) := by
  have h404 : ((masquerade404 : MasqResponse H) = masquerade404 ∨
      (masquerade404 : MasqResponse H) = masquerade502) ∧ (masquerade404 : MasqResponse H).Framed :=
    ⟨.inl rfl, framed_masqueradePage hlaws _ _⟩
  have h502 : ((masquerade502 : MasqResponse H) = masquerade404 ∨
      (masquerade502 : MasqResponse H) = masquerade502) ∧ (masquerade502 : MasqResponse H).Framed :=
    ⟨.inr rfl, framed_masqueradePage hlaws _ _⟩
  unfold masquerade
  split
  · split
    · rename_i proxy hproxy
      unfold masqueradeProxy
      dsimp only
      split
      · exact .inl h404
      · rename_i uri hparse
        split
        · exact .inl h404
        · rename_i outgoing houtgoing
          have hforwards := forwards_outgoingRequest hlaws houtgoing
          split
          · exact .inl h502
          · rename_i resp hresp
            split
            · rename_i hredirect
              exact .inr ⟨proxy, uri, outgoing, resp, hproxy, hparse, hforwards, hresp,
                .inl (redirects_redirect hlaws hredirect)⟩
            · split
              · exact .inl h502
              · rename_i body hbody
                exact .inr ⟨proxy, uri, outgoing, resp, hproxy, hparse, hforwards, hresp,
                  .inr ⟨framed_reframe hlaws _ _ _, relays_reframe hlaws hbody⟩⟩
    · exact .inl h404
  · exact .inl h404

/-- A web server that answers `hi` in chunks. -/
def chunkedWeb : Web Fields where
  parse text := some ⟨text, some "www.example.com", some 8080⟩
  request _ := some ⟨200, [("transfer-encoding", asBytes "chunked"), ("etag", asBytes "1")],
    some [104, 105]⟩

/-- The answer is relayed, to a request whose `Host` is rewritten. -/
theorem masquerade_answers_chunked :
    IsRelayed chunkedWeb ⟨"proxy", some ⟨"http://www.example.com:8080/", true⟩⟩
      ⟨"GET", some "example.com", "/", some "/", [("host", asBytes "example.com")]⟩
      ⟨200, [("etag", asBytes "1"), ("content-type", asBytes "application/octet-stream"),
        ("content-length", asBytes "2")], [104, 105]⟩ := by
  let cfg : MasqueradeConfig := ⟨"proxy", some ⟨"http://www.example.com:8080/", true⟩⟩
  let req : HttpRequest Fields :=
    ⟨"GET", some "example.com", "/", some "/", [("host", asBytes "example.com")]⟩
  have hanswer : masquerade chunkedWeb cfg req =
      ⟨200, [("etag", asBytes "1"), ("content-type", asBytes "application/octet-stream"),
        ("content-length", asBytes "2")], [104, 105]⟩ := by
    decide +kernel
  have h := masquerade_answers fields_lawful chunkedWeb cfg req
  rw [hanswer] at h
  refine h.resolve_left fun hpage => ?_
  rcases hpage.1 with heq | heq
  · exact absurd (congrArg MasqResponse.status heq) (by decide)
  · exact absurd (congrArg MasqResponse.status heq) (by decide)

end Ruproxy.Hysteria2
